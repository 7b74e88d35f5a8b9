/- # Launching — from the words of a process to the program that it runs

A program is found by its path, or by its name in the directories of the
search path.  The file of a program begins with a mark that names it; a
script names its interpreter in its first line; what is neither has no format
that the system knows.
-/
import ProductLine.Shell.Process

namespace ProductLine.Shell

abbrev Program := String

namespace Program

def mark : Chars := '\x7f' :: str "ELF"

def image (program : Program) : Chars := mark ++ str program

def ofImage? (content : Chars) : Option Program :=
  if Chars.startsWith content mark then some (String.ofList (content.drop mark.length)) else none

end Program

/-- The interpreter that the first line of a script names, and the argument it names for it. -/
def interpreterOf? (content : Chars) : Option (Chars × List Chars) :=
  match content with
  | '#' :: '!' :: rest =>
    let line := (rest.takeWhile (· != '\n')).dropWhile fun c => c == ' ' || c == '\t'
    let name := line.takeWhile fun c => c != ' ' && c != '\t'
    let behind := (line.drop name.length).dropWhile fun c => c == ' ' || c == '\t'
    let argument := (behind.reverse.dropWhile fun c => c == ' ' || c == '\t').reverse
    some (name, if argument.isEmpty then [] else [argument])
  | _ => none

/-- How much of a file is looked at to find out how it is to be run. -/
def maxFirstLine : Nat := 256

/-- A word of so many bytes is too long for a program to be started with. -/
def maxWordBytes : Nat := 131072

/-- The most scripts that may be each other's interpreters. -/
def maxInterpreters : Nat := 5

namespace Process

def runnableFile (p : Process) (path : Chars) : Act (Except FileFault Chars) := do
  match ← p.node path with
  | .error fault => return .error fault
  | .ok (_, .file number) =>
    let files := (← get).files
    if files.isRunnable number then return .ok (Chars.slice (files.content number) 0 maxFirstLine)
    else return .error .permissionDenied
  | .ok _ => return .error .permissionDenied

def loadAt (p : Process) : (fuel : Nat) → (path : Chars) → (words : List Chars) →
    Act (Except FileFault (Program × List Chars))
  | 0, _, _ => return .error .tooManyLevels
  | fuel + 1, path, words => do
    match ← p.runnableFile path with
    | .error fault => return .error fault
    | .ok content =>
      match Program.ofImage? content, interpreterOf? content with
      | some program, _ => return .ok (program, words)
      | none, some (interpreter, argument) =>
        p.loadAt fuel interpreter (interpreter :: argument ++ path :: words.drop 1)
      | none, none => return .error .notRunnable

def load (p : Process) (path : Chars) : Act (Except FileFault (Program × List Chars)) := do
  match ← p.runnableFile path with
  | .error fault => return .error fault
  | .ok _ =>
    if p.words.any fun word => maxWordBytes ≤ word.length then return .error .tooManyArguments
    else p.loadAt maxInterpreters path p.words

/-- The paths at which a program of that name may be found. -/
def candidates (searchPath name : Chars) : List Chars :=
  (searchPath.splitOn ':').map fun directory =>
    if directory.isEmpty then name else directory ++ '/' :: name

def isMissing (fault : FileFault) : Bool :=
  fault == .notFound || fault == .notADirectory

/-- What is at a path that can be started: a program with the words it is started with, or a file
without a format that the system knows. -/
abbrev Loaded := Option (Program × List Chars)

/-- The first of some paths at which there is something to start.  If all that is found may not be
run, that is the fault. -/
def loadFirst (p : Process) : List Chars → (denied : Bool) →
    Act (Except FileFault (Chars × Loaded))
  | [], denied => return .error (if denied then .permissionDenied else .notFound)
  | path :: rest, denied => do
    match ← p.load path with
    | .ok loaded => return .ok (path, some loaded)
    | .error .permissionDenied => p.loadFirst rest true
    | .error .notRunnable => return .ok (path, none)
    | .error fault => if isMissing fault then p.loadFirst rest denied else return .error fault

/-- Where programs are searched for if nothing is said about it. -/
def defaultSearchPath : Chars := str "/bin:/usr/bin"

/-- What the first word of a process names: a path, or a name to search for. -/
def search (p : Process) : Act (Except FileFault (Chars × Loaded)) := do
  let name := p.name
  if name.isEmpty then return .error .notFound
  else if name.contains '/' then
    match ← p.load name with
    | .ok loaded => return .ok (name, some loaded)
    | .error .notRunnable => return .ok (name, none)
    | .error fault => return .error fault
  else if FileTree.maxNameBytes < name.length then return .error .nameTooLong
  else p.loadFirst (candidates ((p.setting? "PATH").getD defaultSearchPath) name) false

/-- The program that the first word of a process names, and the words it is started with.  A file
without a format that the system knows is run by a shell. -/
def find (p : Process) : Act (Except FileFault (Program × List Chars)) := do
  match ← p.search with
  | .error fault => return .error fault
  | .ok (_, some loaded) => return .ok loaded
  | .ok (path, none) => return .ok ("sh", str "/bin/sh" :: path :: p.words.drop 1)

end Process

/-- Lets an action run as a process of its own, and says how it ends. -/
def Machine.toEnd (action : Act Unit) : Act Ending := do
  let (result, machine) := action.run.run (← get)
  set machine
  match result with
  | .ok () => return .exited 0
  | .error (.endless stalled) => throw (.endless stalled)
  | .error ending => return ending

/-- Runs the program that the first word of a process names, and says how it ends. -/
def Process.launch (start : Program → Process → Act Unit) (p : Process) :
    Act (Except FileFault Ending) := do
  match ← p.find with
  | .error fault => return .error fault
  | .ok (program, words) =>
    let number ← Machine.newProcess
    let child := { p with number := number, parent := p.number, words := words }
    return .ok (← Machine.toEnd (start program child))

/-- The status by which an ending is known to the process that waits for it. -/
def Ending.status : Ending → Nat
  | .exited code => code % 256
  | .signaled signal => 128 + signal
  | .endless _ => 255

end ProductLine.Shell
