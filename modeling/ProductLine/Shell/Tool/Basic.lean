/- # Tools — what programs have in common

A tool is what a program does as a process.  Most of them read options,
which may stand between the other arguments, and then inputs; a complaint
about an option names the program and ends it.
-/
import ProductLine.Shell.Launch

namespace ProductLine.Shell

abbrev Tool := Process → Act Unit

/-- Whether an option has an argument. -/
inductive Takes where
  | nothing
  | argument
  | optional
deriving DecidableEq

/-- The options of a program: letters, and long names with the letters that they stand for. -/
structure OptionTable where
  letters : List (Char × Takes)
  long : List (String × Char × Takes) := []
  inOrder : Bool := false
  failure : Nat := 1

abbrev Given := Char × Option Chars

namespace OptionTable

def ofLetters (plain withArgument : String) (long : List (String × Char × Takes))
    (failure : Nat) : OptionTable where
  letters := plain.toList.map (fun c => (c, .nothing)) ++
    withArgument.toList.map fun c => (c, .argument)
  long := long
  failure := failure

/-- The options in the letters behind a dash; `next` is the word that may be the argument of the
last of them. The flag says that it is. -/
def readLetters (t : OptionTable) (next : Option Chars) :
    Chars → Except Chars (List Given × Bool)
  | [] => .ok ([], false)
  | c :: rest =>
    match t.letters.lookup c with
    | none => .error (str "invalid option -- '" ++ [c, '\''])
    | some .nothing => (readLetters t next rest).map fun (given, used) => ((c, none) :: given, used)
    | some .optional => .ok ([(c, if rest.isEmpty then none else some rest)], false)
    | some .argument =>
      if !rest.isEmpty then .ok ([(c, some rest)], false)
      else
        match next with
        | some word => .ok ([(c, some word)], true)
        | none => .error (str "option requires an argument -- '" ++ [c, '\''])

/-- The option of a long name, which may be cut short. -/
def readLong (t : OptionTable) (next : Option Chars) (word : Chars) :
    Except Chars (Given × Bool) :=
  let name := word.takeWhile (· != '=')
  let value := if name.length < word.length then some (word.drop (name.length + 1)) else none
  let full := t.long.filter fun entry => entry.1.toList == name
  let matching := if full.isEmpty then
      t.long.filter fun entry => Chars.startsWith entry.1.toList name
    else full
  match matching with
  | [] => .error (str "unrecognized option '--" ++ word ++ ['\''])
  | (long, letter, takes) :: others =>
    if others.any fun other => other.2.1 != letter then
      .error (str "option '--" ++ name ++ str "' is ambiguous; possibilities:" ++
        matching.flatMap fun entry => str " '--" ++ entry.1.toList ++ ['\''])
    else
      match takes, value with
      | .nothing, some _ =>
        .error (str "option '--" ++ long.toList ++ str "' doesn't allow an argument")
      | .nothing, none | .optional, none => .ok ((letter, none), false)
      | _, some value => .ok ((letter, some value), false)
      | .argument, none =>
        match next with
        | some word => .ok ((letter, some word), true)
        | none => .error (str "option '--" ++ long.toList ++ str "' requires an argument")

def read (t : OptionTable) : (fuel : Nat) → List Chars → Except Chars (List Given × List Chars)
  | 0, words => .ok ([], words)
  | _, [] => .ok ([], [])
  | fuel + 1, word :: rest =>
    match word with
    | ['-', '-'] => .ok ([], rest)
    | '-' :: '-' :: name => do
      let (given, used) ← readLong t rest.head? name
      let (more, others) ← read t fuel (if used then rest.drop 1 else rest)
      return (given :: more, others)
    | '-' :: c :: letters => do
      let (given, used) ← readLetters t rest.head? (c :: letters)
      let (more, others) ← read t fuel (if used then rest.drop 1 else rest)
      return (given ++ more, others)
    | word =>
      if t.inOrder then .ok ([], word :: rest)
      else (read t fuel rest).map fun (given, others) => (given, word :: others)

end OptionTable

namespace Given

def has (given : List Given) (letter : Char) : Bool :=
  given.any (·.1 == letter)

def last? (given : List Given) (letter : Char) : Option Chars :=
  (given.reverse.find? (·.1 == letter)).bind Prod.snd

def all (given : List Given) (letter : Char) : List Chars :=
  given.filterMap fun (c, argument) => if c == letter then argument else none

def lastOf? (given : List Given) (letters : String) : Option Char :=
  (given.reverse.find? fun g => letters.toList.contains g.1).map Prod.fst

end Given

namespace Process

def failWithHint {α : Type} (p : Process) (code : Nat) (text : Chars) : Act α := do
  p.warn text
  p.complain (str "Try '" ++ p.name ++ str " --help' for more information.\n")
  throw (.exited code)

def shellWord : Chars := str "sh"

/-- Lets a shell, called by a word, run a command, and waits for its end. -/
def runCommand (p : Process) (start : Program → Process → Act Unit) (shell command : Chars) :
    Act Ending := do
  Machine.spend Machine.processSteps
  let number ← Machine.newProcess
  let child := { p with number := number, parent := p.number }
  Machine.toEnd (start "sh" { child with words := [shell, str "-c", command] })

/-- Lets a shell, called by a word, run a command, and reads what it prints. -/
def readCommand (p : Process) (start : Program → Process → Act Unit) (shell command : Chars) :
    Act (Chars × Ending) := do
  let pipe ← Machine.addPipe {}
  let opening ← Machine.addOpening
    { target := .pipe pipe, readable := false, writable := true }
  let ending ← runCommand (p.withStream 1 opening) start shell command
  Machine.passUntil (← Machine.pipe pipe).readyAt
  return (← Machine.drain pipe, ending)

def options (p : Process) (t : OptionTable) : Act (List Given × List Chars) := do
  match t.read (p.arguments.length + 1) p.arguments with
  | .ok result => return result
  | .error complaint => p.failWithHint t.failure complaint

def reason (fault : FileFault) : Chars := fault.reason.toList

def readInput (p : Process) (name : Chars) : Act (Except FileFault Chars) := do
  if name == ['-'] then
    match ← p.peek 0 everything with
    | .error fault => return .error fault
    | .ok text =>
      p.take 0 text.length
      return .ok text
  else p.readPath name

/-- Waits for the end of the standard input, if it was one of the inputs. -/
def awaitInputs (p : Process) (names : List Chars) : Act Unit := do
  if names.contains ['-'] then p.awaitEnd 0

/-- The inputs that arguments name; without arguments, the standard input. -/
def inputNames (names : List Chars) : List Chars :=
  if names.isEmpty then [['-']] else names

/-- Reads inputs; those that cannot be read are complained about, and left out. -/
def readInputs (p : Process) (complaint : Chars → FileFault → Chars) :
    List Chars → Act (List (Chars × Chars) × Bool)
  | [] => return ([], true)
  | name :: rest => do
    match ← p.readInput name with
    | .ok text =>
      let (others, ok) ← p.readInputs complaint rest
      return ((name, text) :: others, ok)
    | .error fault =>
      p.warn (complaint name fault)
      let (others, _) ← p.readInputs complaint rest
      return (others, false)

/-- The usual complaint about an input. -/
def faultOf (name : Chars) (fault : FileFault) : Chars :=
  name ++ str ": " ++ reason fault

/-- Ends with a code, which is no failure if it is zero. -/
def done (code : Nat) : Act Unit :=
  if code = 0 then return () else throw (.exited code)

/-- A program that prints what it makes of all its inputs together. -/
def filter (p : Process) (names : List Chars) (make : Chars → Act Chars) : Act Unit := do
  let names := inputNames names
  let (inputs, ok) ← p.readInputs faultOf names
  p.print (← make (inputs.flatMap Prod.snd))
  p.awaitInputs names
  done (if ok then 0 else 1)

/-- A program that prints what it makes of each of its inputs. -/
def filterEach (p : Process) (names : List Chars) (make : Chars → Chars) : Act Unit := do
  let names := inputNames names
  let mut status := 0
  for name in names do
    match ← p.readInput name with
    | .error fault =>
      p.warn (faultOf name fault)
      status := 1
    | .ok text => p.print (make text)
  p.awaitInputs names
  done status

end Process

/-! ## Numbers in arguments -/

def suffixFactor? (suffix : Chars) : Option Nat :=
  let units := "KMGTPE".toList
  let power (base : Nat) (c : Char) : Option Nat :=
    (units.findIdx? (· == c)).map fun i => Nat.pow base (i + 1)
  match suffix with
  | [] => some 1
  | ['b'] => some 512
  | ['k'] => some 1024
  | ['c'] => some 1
  | [c] => power 1024 c
  | [c, 'B'] => if c == 'k' then some 1000 else power 1000 c
  | [c, 'i', 'B'] => power 1024 c
  | _ => none

/-- The size that a text spells, which may have a suffix. -/
def sizeArgument? (text : Chars) : Option Nat :=
  let digits := text.takeWhile Char.isDigit
  if digits.isEmpty then none
  else (suffixFactor? (text.drop digits.length)).map (Chars.digitsValue digits * ·)

end ProductLine.Shell
