/- # The machine — files, pipes and time, as processes share them

What all processes act on is one value: the files, the streams that are
open, the pipes, and a clock.  Processes run one after the other.  A command
that writes to a pipe runs before the one that reads from it, so a writer
without end is set aside once it has written as much as there is room for,
and a reader that asks for more than that waits for ever.

A run ends early with an `Ending`: by itself, by a signal, or not at all
before the patience with it is over.
-/
import ProductLine.Files.Change
import ProductLine.Shell.Chars

namespace ProductLine.Shell

/-- Where an open stream leads. -/
inductive Target where
  | nowhere
  | zeros
  | noise
  | full
  | pipe (number : Nat)
  | file (number : Nat)
  | directory (place : Location)
deriving DecidableEq

/-- A stream that has been opened.  Every stream that was made from it shares its position. -/
structure Opening where
  target : Target
  readable : Bool
  writable : Bool
  appends : Bool := false
  position : Nat := 0

/-- A pipe: what waits to be read, what was written since, the latest piece first, and how much
that is.  The room in a pipe between two commands `isLimited`.  Nothing can be read before the time
`readyAt`, and what comes after the writer was `setAside` never arrives. -/
structure Pipe where
  unread : Chars := []
  recent : List Chars := []
  held : Nat := 0
  isLimited : Bool := false
  readyAt : Nat := 0
  setAside : Bool := false

def Pipe.content (p : Pipe) : Chars :=
  if p.recent.isEmpty then p.unread else p.unread ++ p.recent.reverse.flatten

/-- The least room in a pipe between two commands. -/
def leastRoom : Nat := 65536

/-- What all processes act on.  `steps` is the work that may still be done, `room` what fits into a
pipe between two commands before one more piece is written, `deadline` the time at which everything
is stopped, and `signals` holds the signals that have been sent and not yet been received, by the
number of the process. -/
structure Machine where
  files : FileTree
  openings : Array Opening := #[]
  pipes : Array Pipe := #[]
  micros : Nat := 0
  deadline : Nat
  steps : Nat
  room : Nat := leastRoom
  nextProcess : Nat := 4712
  serial : Nat := 0
  signals : List (Nat × Nat) := []

/-- How a process ends: with a code, by a signal, or not in time.  A process that was `stalled` has
used up its steps. -/
inductive Ending where
  | exited (code : Nat)
  | signaled (signal : Nat)
  | endless (stalled : Bool)
deriving DecidableEq

/-- An action on the machine, which may be the end of the process that acts. -/
abbrev Act := ExceptT Ending (StateM Machine)

/-- The signal for writing to a pipe that nobody reads. -/
def brokenPipeSignal : Nat := 13

namespace Machine

def idle : Machine :=
  { files := { workingDirectory := [], entries := [] }, deadline := 0, steps := 0 }

/-- How many streams and pipes there are. -/
def counts (m : Machine) : Nat × Nat := (m.openings.size, m.pipes.size)

/-- The machine with no more streams and pipes than that; those that were made later are not needed
any more when the process has ended that made them. -/
def shrunk (m : Machine) (counts : Nat × Nat) : Machine :=
  { m with openings := m.openings.shrink counts.1, pipes := m.pipes.shrink counts.2 }

def addOpening (opening : Opening) : Act Nat :=
  modifyGet fun m => (m.openings.size, { m with openings := m.openings.push opening })

def addPipe (pipe : Pipe) : Act Nat :=
  modifyGet fun m => (m.pipes.size, { m with pipes := m.pipes.push pipe })

def opening? (number : Nat) : Act (Option Opening) := do
  return (← get).openings[number]?

def setOpening (number : Nat) (opening : Opening) : Act Unit :=
  modify fun m => { m with openings := m.openings.setIfInBounds number opening }

def pipe (number : Nat) : Act Pipe := do
  return ((← get).pipes[number]?).getD {}

def setPipe (number : Nat) (pipe : Pipe) : Act Unit :=
  modify fun m => { m with pipes := m.pipes.setIfInBounds number pipe }

def addText (text : Chars) : Act Nat := do
  let pipe ← addPipe { unread := text }
  addOpening { target := .pipe pipe, readable := true, writable := false }

/-- Lets time pass; at the deadline everything ends. -/
def pass (micros : Nat) : Act Unit := do
  let m ← get
  if micros = 0 then return
  else if m.deadline ≤ m.micros + micros then
    set { m with micros := m.deadline }
    throw (.endless false)
  else
    set { m with micros := m.micros + micros }

def passUntil (time : Nat) : Act Unit := do
  pass (time - (← get).micros)

def commandSteps : Nat := 8

def wordSteps : Nat := 1

def forkSteps : Nat := 60

/-- The steps that it takes to find and start a program. -/
def processSteps : Nat := 400

/-- The steps of a round of a loop, besides what is done in it. -/
def loopSteps : Nat := 2

/-- How many characters are read or written in a step. -/
def movedInStep : Nat := 4

def copiedInStep : Nat := 8

def maxText : Nat := 8388608

/-- The most that a pipe or a file that grows may hold before more is written to it. -/
def maxHeld : Nat := 20971520

def spend (count : Nat) : Act Unit := do
  let m ← get
  if m.steps < count then
    set { m with steps := 0 }
    throw (.endless true)
  else set { m with steps := m.steps - count }

/-- Uses up the steps that it takes to read or write so many characters. -/
def spendMoving (count : Nat) : Act Unit :=
  if movedInStep ≤ count then spend (count / movedInStep) else return

/-- Uses up the steps that it takes to copy so many characters. -/
def spendCopying (count : Nat) : Act Unit :=
  if maxText < count then throw (.endless true)
  else if copiedInStep ≤ count then spend (count / copiedInStep)
  else return

def drain (number : Nat) : Act Chars := do
  let p ← pipe number
  spendMoving p.held
  setPipe number { p with unread := [], recent := [], held := 0 }
  return p.content

def newProcess : Act Nat :=
  modifyGet fun m => (m.nextProcess, { m with nextProcess := m.nextProcess + 1 })

def newSerial : Act Nat :=
  modifyGet fun m => (m.serial, { m with serial := m.serial + 1 })

def sendSignal (process signal : Nat) : Act Unit :=
  modify fun m => { m with signals := m.signals ++ [(process, signal)] }

def takeSignal (process : Nat) : Act (Option Nat) := do
  let m ← get
  match m.signals.find? (·.1 == process) with
  | none => return none
  | some entry =>
    set { m with signals := m.signals.erase entry }
    return some entry.2

def fileBytes (number : Nat) : Act ByteArray := do
  return (← get).files.content number

def modifyFile (number : Nat) (f : ByteArray → ByteArray) : Act Unit :=
  modify fun m => { m with files := m.files.modifyContent number f }

/-! ## Reading and writing -/

/-- So many characters without a pattern, from a seed on. -/
def noise : (count seed : Nat) → Chars
  | 0, _ => []
  | count + 1, seed =>
    let seed := (seed * 1103515245 + 12345) % 2147483648
    Char.ofNat (seed / 65536 % 256) :: noise count seed

/-- What a stream has still to give, without taking it; where that is without end, at most
`limit`. -/
def available (opening : Opening) (limit : Nat) : Act Chars := do
  match opening.target with
  | .nowhere | .directory _ => return []
  | .zeros | .full => return List.replicate (min limit (← get).room) '\x00'
  | .noise => return noise (min limit (← get).room) opening.position
  | .pipe number => do
    let p ← pipe number
    passUntil p.readyAt
    return p.content
  | .file number => do
    let bytes ← fileBytes number
    return Chars.slice bytes opening.position (opening.position + limit)

/-- Takes so many characters from a stream. -/
def advance (number count : Nat) : Act Unit := do
  spendMoving count
  match ← opening? number with
  | none => return
  | some opening =>
    match opening.target with
    | .pipe n => do
      let p ← pipe n
      setPipe n { p with
        unread := p.content.drop count, recent := [], held := p.held - count }
    | _ => setOpening number { opening with position := opening.position + count }

/-- Nothing more will come, or ever so much: a reader of a pipe whose writer was set aside, and one
that wants all the zeros there are, wait for ever. -/
def awaitEnd (opening : Opening) : Act Unit := do
  match opening.target with
  | .zeros | .noise | .full => throw (.endless true)
  | .pipe n => if (← pipe n).setAside then throw (.endless true)
  | _ => return

def overwrite (position : Nat) (text : Chars) (bytes : ByteArray) : ByteArray :=
  if position = bytes.size then Chars.appendTo bytes text
  else
    let front := bytes.extract 0 position ++ ⟨Array.replicate (position - bytes.size) 0⟩
    Chars.appendTo front text ++ bytes.extract (position + text.length) bytes.size

def write (number : Nat) (text : Chars) : Act (Except FileFault Unit) := do
  match ← opening? number with
  | none => return .error .badDescriptor
  | some opening =>
    if !opening.writable then return .error .badDescriptor
    else
      let size := text.length
      spendMoving size
      match opening.target with
      | .nowhere | .zeros | .noise => return .ok ()
      | .full => return if text.isEmpty then .ok () else .error .noSpace
      | .directory _ => return .error .isADirectory
      | .pipe n => do
        let p ← pipe n
        if maxHeld ≤ p.held || p.isLimited && (← get).room ≤ p.held then throw (.endless true)
        setPipe n { p with recent := text :: p.recent, held := p.held + size }
        return .ok ()
      | .file n => do
        let behind := (← get).files.size n
        let position := if opening.appends then behind else opening.position
        if maxHeld ≤ position then throw (.endless true)
        modifyFile n (overwrite position text)
        setOpening number { opening with position := position + size }
        return .ok ()

/-! ## Files that go and move -/

def changing (operation : FileTree → Except FileFault FileTree) : Act (Except FileFault Unit) := do
  match operation (← get).files with
  | .error fault => return .error fault
  | .ok files =>
    modify fun m => { m with files := files }
    return .ok ()

end Machine

end ProductLine.Shell
