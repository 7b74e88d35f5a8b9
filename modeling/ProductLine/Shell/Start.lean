/- # Starting a shell — from the words of a process to a session at work

A shell gets its commands as an argument, from a file, or from its input.
The options in front of them are those of the command `set`.
-/
import ProductLine.Shell.Interpreter

namespace ProductLine.Shell

/-- Where the commands of a shell come from. -/
inductive ScriptSource where
  | argument (text : Chars)
  | file (path : Chars)
  | input
  | nothing (status : Nat)

namespace Sh

/-- The long options of the extended dialect that have no effect here. -/
def idleOptions : List String :=
  ["--norc", "--noprofile", "--noediting", "--login", "--posix", "--restricted", "--verbose"]

/-- How a shell of the extended dialect is used, after a complaint about an option. -/
def shellUsage (name : Chars) : Chars :=
  str "Usage:\t" ++ name ++ str " [GNU long option] [option] ...\n\t" ++ name ++
    str " [GNU long option] [option] script-file ...\n" ++
    str "GNU long options:\n\t--debug\n\t--debugger\n\t--dump-po-strings\n\t--dump-strings\n" ++
    str "\t--help\n\t--init-file\n\t--login\n\t--noediting\n\t--noprofile\n\t--norc\n\t--posix\n" ++
    str "\t--pretty-print\n\t--rcfile\n\t--restricted\n\t--verbose\n\t--version\n" ++
    str "Shell options:\n\t-ilrsD or -c command or -O shopt_option\t\t(invocation only)\n" ++
    str "\t-abefhkmnptuvxBCEHPT or -o option\n"

/-- The letters of an option of the shell: whether its commands are an argument, whether they are
its input, and the letters of options. -/
structure StartLetters where
  isArgument : Bool := false
  isInput : Bool := false
  set : Chars := []

def StartLetters.add (l : StartLetters) (letter : Char) : StartLetters :=
  if letter == 'c' then { l with isArgument := true }
  else if letter == 's' then { l with isInput := true }
  else if letter == 'l' || letter == 'i' then l
  else { l with set := l.set ++ [letter] }

/-- The complaint about an option with which a shell cannot be started. -/
def refuseStart (words : Chars) : Sh Unit := do
  let s ← session
  if s.extended then
    writeError (s.name ++ str ": " ++ words ++ str ": invalid option\n" ++ shellUsage s.name)
    setStatus 2
    throw .exited
  else fail (str "Illegal option " ++ words)

/-- Takes in the options of a shell and returns the other words.  `fuel` bounds the words. -/
def startOptions : (fuel : Nat) → StartLetters → List Chars → Sh (StartLetters × List Chars)
  | 0, l, words => return (l, words)
  | _, l, [] => return (l, [])
  | fuel + 1, l, word :: rest => do
    let extended ← isExtended
    match word with
    | ['-'] | ['-', '-'] => return (l, rest)
    | '-' :: '-' :: _ =>
      if extended && idleOptions.contains (String.ofList word) then startOptions fuel l rest
      else
        refuseStart (if extended then word else str "--")
        return (l, rest)
    | sign :: letters =>
      if (sign == '-' || sign == '+') && !letters.isEmpty then
        let new := letters.foldl StartLetters.add { l with set := [] }
        let wrong := new.set.find? fun letter =>
          letter != 'o' && (optionOfLetter? extended letter).isNone
        match wrong with
        | some letter =>
          refuseStart ['-', letter]
          return (l, rest)
        | none =>
          let rest ← switchLetters (sign == '-') new.set rest
          startOptions fuel new rest
      else return (l, word :: rest)
    | [] => return (l, word :: rest)

/-- Where the commands come from, by the words of the shell. -/
def findSource (words : List Chars) : Sh ScriptSource := do
  let (letters, words) ← startOptions (words.length + 1) {} words
  let s ← session
  if letters.isArgument then
    match words with
    | [] =>
      if s.extended then
        writeError (s.name ++ str ": -c: option requires an argument\n")
        return .nothing 2
      else
        warn (str "-c requires an argument")
        return .nothing 2
    | text :: more =>
      modifySession fun s => { s with
        name := more.headD s.name, arguments := more.drop 1, fromWords := true }
      return .argument text
  else
    match letters.isInput, words with
    | false, path :: more =>
      modifySession fun s => { s with arguments := more }
      return .file path
    | _, words =>
      modifySession fun s => { s with arguments := words }
      return .input

/-- The path of a script: a name without a slash may also be searched for. -/
def scriptPath (path : Chars) : Sh Chars := do
  let s ← session
  let p := s.process []
  match ← lift (.error .notFound) (p.node path) with
  | .error .notFound =>
    if path.contains '/' || !s.extended then return path
    else return (← firstProgram p (Process.candidates (searchPath s) path)).getD path
  | _ => return path

def runFile (below : Level) (path : Chars) : Sh Unit := do
  let s ← session
  match ← lift (.error .notFound) ((s.process []).readPath (← scriptPath path)) with
  | .ok text =>
    modifySession fun s => { s with name := path, line := 1 }
    runScript below text
  | .error .isADirectory =>
    if s.extended then
      writeError (path ++ str ": " ++ path ++ str ": Is a directory\n")
      setStatus 126
  | .error fault =>
    if s.extended then
      writeError (s.name ++ str ": " ++ path ++ str ": " ++ fault.reason.toList ++ ['\n'])
      setStatus 127
      throw .exited
    else fail (openFault false .read path fault)

def runSource (below : Level) : ScriptSource → Sh Unit
  | .argument text => do
    modifySession fun s => { s with line := 1 }
    runText below { last := true } (str "-c: ") text
  | .file path => runFile below path
  | .input => do
    let p := (← session).process []
    match ← lift (.error .badDescriptor) (p.readAll 0) with
    | .ok text =>
      modifySession fun s => { s with line := 1 }
      runScript below text
    | .error _ => return
  | .nothing status => exit status

end Sh

def startBindings (extended : Bool) (p : Process) (here : Chars) : List (Chars × Variable) :=
  let given := p.environment.filterMap fun (name, value) =>
    if Chars.isName name && name != str "IFS" then
      let value := if name == str "PWD" then here else value
      some (name, { value := some value, exported := true : Variable })
    else none
  let own : List (String × Chars × Bool) :=
    [("IFS", str " \t\n", false), ("OPTIND", ['1'], false), ("PS4", str "+ ", false),
      ("PATH", Sh.standardSearchPath, false), ("PWD", here, true)] ++
    (if extended then [("SHLVL", ['1'], true), ("BASH", str "/usr/bin/bash", false),
      ("BASH_VERSION", str "5.2.21(1)-release", false), ("UID", ['0'], false),
      ("EUID", ['0'], false), ("HOSTNAME", str "localhost", false), ("TERM", str "dumb", false),
      ("HOSTTYPE", str "x86_64", false), ("MACHTYPE", str "x86_64-pc-linux-gnu", false),
      ("OSTYPE", str "linux-gnu", false), ("OPTERR", ['1'], false)] else [])
  let added := own.filterMap fun (name, value, exported) =>
    if given.any (·.1 == str name) then none
    else some (str name, { value := some value, exported := exported : Variable })
  let unset : List (Chars × Variable) :=
    if extended && !given.any (·.1 == str "OLDPWD") then [(str "OLDPWD", { exported := true })]
    else []
  given ++ added ++ unset

/-- The path by which a process came to its directory, as far as the environment tells. -/
def startPath (p : Process) : Act Chars := do
  match p.setting? "PWD" with
  | some path =>
    let isPlain := path.head? == some '/' && Sh.plainPath path == path
    let leadsHere := match ← p.locate path with
      | .ok place => place == p.directory
      | .error _ => false
    return if isPlain && leadsHere then path else Process.pathOf p.directory
  | none => return Process.pathOf p.directory

def runShell (below : Level) (extended : Bool) (p : Process) : Act Unit := do
  let here ← startPath p
  let session : Session :=
    { extended := extended, number := p.number, mainNumber := p.number, parent := p.parent
      name := p.name, lastWord := p.name, bindings := startBindings extended p here
      directory := p.directory, here := here
      streams := p.streams, line := 0
      options := if extended then ["braceexpand", "hashall", "interactive-comments"] else []
      switches := if extended then (Sh.furtherOptions.filter Prod.snd).map Prod.fst else [] }
  let body : Sh Unit := do
    let source ← Sh.findSource p.arguments
    Sh.runSource below source
  let (ending, machine) := Sh.asProcess below (Sh.finish below) session body (← get).counts (← get)
  set machine
  throw ending

end ProductLine.Shell
