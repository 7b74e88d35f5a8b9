/- # Processes — a program that runs, and what it can do

A process has words, an environment, a directory and streams, which it knows
by small numbers: 0 is its input, 1 its output, 2 its errors.  It opens
files, reads and writes.
-/
import ProductLine.Shell.Machine

namespace ProductLine.Shell

structure Process where
  number : Nat := 4711
  parent : Nat := 4710
  words : List Chars
  environment : List (Chars × Chars)
  streams : List (Nat × Nat)
  directory : Location

/-- How a file is opened. -/
inductive OpenMode where
  | read
  | write
  | append
  | both
  | create
deriving DecidableEq

namespace Process

def arguments (p : Process) : List Chars := p.words.drop 1

def name (p : Process) : Chars := p.words.headD []

def setting? (p : Process) (name : String) : Option Chars :=
  p.environment.lookup (str name)

def stream? (p : Process) (n : Nat) : Option Nat := p.streams.lookup n

def withStream (p : Process) (n opening : Nat) : Process :=
  { p with streams := (n, opening) :: p.streams.filter (·.1 ≠ n) }

/-! ## Paths -/

/-- The location of a path; a link at its end is followed only if that is wanted. -/
def locateBy (followsLast : Bool) (p : Process) (path : Chars) :
    Act (Except FileFault Location) := do
  let files := (← get).files
  if path.isEmpty then return .error .notFound
  return { files with workingDirectory := p.directory }.locatePath followsLast (Chars.toName path)

def locate (p : Process) (path : Chars) : Act (Except FileFault Location) :=
  locateBy true p path

/-- The path ends with a slash, so what it leads to has to be a directory. -/
def wantsDirectory (path : Chars) : Bool :=
  path.getLast? == some '/'

def streamAt? (p : Process) (place : Location) : Option (Option Nat) :=
  match place with
  | ["proc", "self", "fd", n] => some ((Chars.toNat? n.toList).bind p.stream?)
  | _ => none

/-- What a path leads to; a link at its end is followed only if that is wanted. -/
def nodeBy (followsLast : Bool) (p : Process) (path : Chars) :
    Act (Except FileFault (Location × FileNode)) := do
  match ← locateBy followsLast p path with
  | .error fault => return .error fault
  | .ok place =>
    match p.streamAt? place, (← get).files.node? place with
    | some none, _ | none, none => return .error .notFound
    | some (some _), _ => return .ok (place, .device .sink)
    | none, some .directory => return .ok (place, .directory)
    | none, some node =>
      return if wantsDirectory path then .error .notADirectory else .ok (place, node)

def node (p : Process) (path : Chars) : Act (Except FileFault (Location × FileNode)) :=
  nodeBy true p path

def entry (p : Process) (path : Chars) : Act (Except FileFault (Location × FileNode)) :=
  nodeBy false p path

def pathOf (place : Location) : Chars :=
  '/' :: ['/'].intercalate (place.map Chars.ofString)

/-! ## Opening -/

/-- Where a stream leads that was opened at a device. -/
def deviceTarget? : Device → Except FileFault Target
  | .sink => .ok .nowhere
  | .zeros => .ok .zeros
  | .noise => .ok .noise
  | .full => .ok .full
  | .channel number => .ok (.file number)
  | .missing => .error .noSuchDevice

def canRead (mode : OpenMode) : Bool :=
  mode == .read || mode == .both

def canWrite (mode : OpenMode) : Bool :=
  mode != .read

def openTarget (mode : OpenMode) (target : Target) : Act Nat :=
  Machine.addOpening
    { target := target, readable := canRead mode, writable := canWrite mode
      appends := mode == .append }

def openNumbered (number : Nat) (mode : OpenMode) : Act (Except FileFault Nat) := do
  if mode == .write then Machine.modifyFile number fun _ => .empty
  return .ok (← openTarget mode (.file number))

/-- Opens what stands at a location; `path` is how it is named. -/
def openPlace (path : Chars) (place : Location) (mode : OpenMode) :
    Act (Except FileFault Nat) := do
  let files := (← get).files
  match files.node? place, mode with
  | none, .read => return .error .notFound
  | none, _ =>
    if wantsDirectory path then return .error .isADirectory
    else
      modify fun m => { m with files := m.files.create place { content := .empty } }
      return .ok (← openTarget mode (.file files.stored.size))
  | some .directory, .read => return .ok (← openTarget mode (.directory place))
  | some .directory, .create | some (.file _), .create | some (.device _), .create =>
    return .error .alreadyExists
  | some .directory, _ => return .error .isADirectory
  | some (.link _), _ => return .error .tooManyLevels
  | some (.file number), mode =>
    if wantsDirectory path then return .error .notADirectory else openNumbered number mode
  | some (.device d), mode =>
    match deviceTarget? d with
    | .error fault => return .error fault
    | .ok target => return .ok (← openTarget mode target)

def openPath (p : Process) (path : Chars) (mode : OpenMode) : Act (Except FileFault Nat) := do
  match ← locateBy (mode != .create) p path with
  | .error fault => return .error fault
  | .ok place =>
    match p.streamAt? place with
    | none =>
      match (← get).files.node? place, mode with
      | some (.link _), .create => return .error .alreadyExists
      | _, mode => openPlace path place mode
    | some none => return .error .notFound
    | some (some opening) =>
      match ← Machine.opening? opening with
      | some { target := .file number, .. } => openNumbered number mode
      | some { target := target, .. } => return .ok (← openTarget mode target)
      | none => return .error .notFound

/-! ## Reading -/

/-- What can be read from a stream now, without taking it; at most `limit` of what is without
end. -/
def peek (p : Process) (n limit : Nat) : Act (Except FileFault Chars) := do
  match p.stream? n with
  | none => return .error .badDescriptor
  | some number =>
    match ← Machine.opening? number with
    | none => return .error .badDescriptor
    | some opening =>
      if !opening.readable then return .error .badDescriptor
      else
        match opening.target with
        | .directory _ => return .error .isADirectory
        | _ => return .ok (← Machine.available opening limit)

def take (p : Process) (n count : Nat) : Act Unit := do
  match p.stream? n with
  | none => return
  | some number => Machine.advance number count

def awaitEnd (p : Process) (n : Nat) : Act Unit := do
  match p.stream? n with
  | none => return
  | some number =>
    match ← Machine.opening? number with
    | none => return
    | some opening => Machine.awaitEnd opening

def everything : Nat := 1000000000000

def readAll (p : Process) (n : Nat) : Act (Except FileFault Chars) := do
  match ← p.peek n everything with
  | .error fault => return .error fault
  | .ok text =>
    p.awaitEnd n
    p.take n text.length
    return .ok text

/-- Reads a text up to and with a mark, or to its end, where there may be more than what could be
looked at so far. -/
def readToIn (p : Process) (n : Nat) (mark : Char) (text : Chars) : Act (Option Chars) := do
  let front := text.takeWhile (· != mark)
  match text.drop front.length with
  | _ :: _ =>
    p.take n (front.length + 1)
    return some (front ++ [mark])
  | [] => return none

def readTo (p : Process) (n : Nat) (mark : Char) : Act (Except FileFault Chars) := do
  let glance := 512
  match ← p.peek n glance with
  | .error fault => return .error fault
  | .ok text =>
    match ← p.readToIn n mark text with
    | some line => return .ok line
    | none =>
      match ← p.peek n everything with
      | .error fault => return .error fault
      | .ok text =>
        match ← p.readToIn n mark text with
        | some line => return .ok line
        | none =>
          p.awaitEnd n
          p.take n text.length
          return .ok text

def readSome (p : Process) (n count : Nat) : Act (Except FileFault Chars) := do
  match ← p.peek n count with
  | .error fault => return .error fault
  | .ok text =>
    let front := text.take count
    if front.length < count then p.awaitEnd n
    p.take n front.length
    return .ok front

/-- Reads at most so many characters, piece by piece.  `fuel` bounds the pieces. -/
def readPieces (p : Process) (n : Nat) :
    (fuel : Nat) → (count : Nat) → Act (Except FileFault Chars)
  | 0, _ => throw (.endless true)
  | fuel + 1, count => do
    let size := min count leastRoom
    match ← p.readSome n size with
    | .error fault => return .error fault
    | .ok piece =>
      if piece.length < size || size = count then return .ok piece
      else return (← p.readPieces n fuel (count - size)).map (piece ++ ·)

/-- Reads at most so many characters, however many that are. -/
def readCount (p : Process) (n count : Nat) : Act (Except FileFault Chars) :=
  p.readPieces n (min count Machine.maxHeld / leastRoom + 1) count

def readPath (p : Process) (path : Chars) : Act (Except FileFault Chars) := do
  match ← p.openPath path .read with
  | .error fault => return .error fault
  | .ok number => (p.withStream 0 number).readAll 0

/-! ## Writing -/

def write (p : Process) (n : Nat) (text : Chars) : Act (Except FileFault Unit) := do
  match p.stream? n with
  | none => return .error .badDescriptor
  | some number => Machine.write number text

/-- Writes to the errors; what cannot be written there is lost. -/
def complain (p : Process) (text : Chars) : Act Unit := do
  let _ ← p.write 2 text

/-- Writes to the output.  A program that cannot do so says so and fails. -/
def print (p : Process) (text : Chars) : Act Unit := do
  if text.isEmpty then return
  match ← p.write 1 text with
  | .ok () => return
  | .error fault =>
    p.complain (p.name ++ str ": write error: " ++ fault.reason.toList ++ ['\n'])
    throw (.exited 1)

/-- Writes a complaint in the name of the program. -/
def warn (p : Process) (text : Chars) : Act Unit :=
  p.complain (p.name ++ str ": " ++ text ++ ['\n'])

def fail {α : Type} (p : Process) (code : Nat) (text : Chars) : Act α := do
  p.warn text
  throw (.exited code)

end Process

end ProductLine.Shell
