/- # Builtin commands that report — texts, conditions, names and directories

These commands print something or answer a question; one of them changes the
directory.
-/
import ProductLine.Shell.Builtin.Variables
import ProductLine.Shell.Format

namespace ProductLine.Shell

/-- The builtin commands that both dialects have, apart from those that are part of the language. -/
def plainBuiltins : List String :=
  ["[", "alias", "bg", "cd", "command", "echo", "false", "fg", "getopts", "hash", "jobs",
    "kill", "printf", "pwd", "read", "test", "true", "type", "ulimit", "umask", "unalias",
    "wait"]

/-- The builtin commands of the extended dialect alone. -/
def extendedBuiltins : List String :=
  ["bind", "builtin", "caller", "compgen", "complete", "compopt", "declare", "dirs", "disown",
    "enable", "fc", "help", "history", "let", "logout", "mapfile", "popd", "pushd", "readarray",
    "shopt", "source", "suspend", "typeset"]

def isBuiltin (extended : Bool) (name : Chars) : Bool :=
  let name := String.ofList name
  Read.specialBuiltins.contains name || plainBuiltins.contains name ||
    (if extended then extendedBuiltins.contains name else name == "chdir")

def reservedWords (extended : Bool) : List String :=
  ["!", "case", "do", "done", "elif", "else", "esac", "fi", "for", "if", "in", "then", "until",
    "while", "\x7b", "\x7d"] ++
    (if extended then ["[[", "]]", "function", "time", "select", "coproc"] else [])

namespace Sh

/-! ## Texts -/

/-- The options in front of the arguments of `echo` in the extended dialect. -/
def echoOptions : List Chars → Chars × List Chars
  | [] => ([], [])
  | word :: rest =>
    match word with
    | '-' :: c :: more =>
      if (c :: more).all "neE".toList.contains then
        let (letters, rest) := echoOptions rest
        (c :: more ++ letters, rest)
      else ([], word :: rest)
    | _ => ([], word :: rest)

def echoEscapes (extended : Bool) : Escapes :=
  if extended then { zeroOctal := true, plainOctal := false, hex := true, stop := true }
  else { zeroOctal := true, plainOctal := false, stop := true, escapeChar := false }

def echoCommand (words : List Chars) : Sh Nat := do
  let extended ← isExtended
  let (letters, words) := if extended then echoOptions words
    else match words with
      | ['-', 'n'] :: rest => (['n'], rest)
      | words => ([], words)
  let text := [' '].intercalate words
  let standing := !extended || (← hasSwitch "xpg_echo")
  let interprets := ((letters.reverse.find? fun c => c == 'e' || c == 'E').map (· == 'e')).getD
    standing
  let (text, stopped) := if interprets then (echoEscapes extended).apply text else (text, false)
  say (if stopped || letters.contains 'n' then text else text ++ ['\n'])

def printfCommand (words : List Chars) : Sh Nat := do
  spend Machine.commandSteps
  let extended ← isExtended
  let (target, words) := match words with
    | ['-', 'v'] :: name :: rest => if extended then (some name, rest) else (none, words)
    | _ => (none, words)
  let wrong := target.filter fun name => !isTarget true name
  if let some name := wrong then
    complain (str "\x60" ++ name ++ str "': not a valid identifier")
    return 2
  match if words == [str "--"] then [] else words with
  | format :: arguments =>
    let (isMarked, format, arguments) := match format, arguments with
      | ['-', '-'], format :: arguments => (true, format, arguments)
      | format, arguments => (false, format, arguments)
    if !isMarked && 1 < format.length && format.head? == some '-' && format != str "--" then
      illegalOption (format.getD 1 ' ')
    else
      let setting := ((← session).setting? (str "TZ")).filter Variable.exported
      let zone := Calendar.Zone.ofSetting (setting.bind Variable.value)
      let r := formatWith (if extended then .bash else .posix) zone format arguments
      for complaint in r.complaints do complain complaint
      match target with
      | some name =>
        assignTarget name r.output
        return if r.failed then 1 else 0
      | none =>
        let status ← say r.output
        if r.aborted && !extended then
          setStatus 2
          throw .fault
        else return if r.failed then 1 else status
  | [] =>
    if extended then
      showUsage
      return 2
    else fail (str "usage: printf format [arg ...]")

/-- The command `test`; within brackets, the last word closes them. -/
def testCommand (inBrackets : Bool) (words : List Chars) : Sh Nat := do
  let s ← session
  let dialect : Dialect := if s.extended then .bash else .posix
  if inBrackets && words.getLast? != some [']'] then
    complain (unclosedCondition dialect)
    return 2
  else
    let words := if inBrackets then words.dropLast else words
    let isSet := match words with
      | ['-', 'v'] :: name :: [] => if s.extended then some (s.value? name).isSome else none
      | ['-', 'o'] :: name :: [] =>
        if s.extended then some (s.options.contains (String.ofList name)) else none
      | _ => none
    match isSet with
    | some value => return if value then 0 else 1
    | none =>
      let p := s.process []
      let view ← lift { files := (← get).machine.files, directory := s.directory } p.fileView
      match conditionValue dialect view words with
      | .ok value => return if value then 0 else 1
      | .error complaint =>
        complain complaint
        return 2

/-! ## Directories -/

/-- Changes the directory, to which a path has led, and remembers the one before. -/
def moveTo (place : Location) (path : Chars) : Sh Unit := do
  let old := (← session).here
  modifySession fun s => { s with directory := place, here := path }
  adjust (str "OLDPWD") fun v => { v with value := some old, exported := true }
  adjust (str "PWD") fun v => { v with value := some path, exported := true }

/-- A path that starts at the root, without steps that stay where they are or lead up again. -/
def plainPath (path : Chars) : Chars :=
  let add (steps : List Chars) (step : Chars) : List Chars :=
    if step.isEmpty || step == ['.'] then steps
    else if step == ['.', '.'] then steps.drop 1
    else step :: steps
  let steps := (path.splitOn '/').foldl add []
  '/' :: ['/'].intercalate steps.reverse

/-- The directories to look for a relative path in, each with whether its name is to be printed. -/
def directoriesFor (s : Session) (path : Chars) : List (Chars × Bool) :=
  let front := path.takeWhile (· != '/')
  match s.value? (str "CDPATH") with
  | none => [(path, false)]
  | some list =>
    if front.isEmpty || front == ['.'] || front == ['.', '.'] then [(path, false)]
    else
      ((list.splitOn ':').map fun directory =>
        if directory.isEmpty then (path, false) else (directory ++ '/' :: path, true)) ++
      [(path, false)]

/-- Goes to the first of some directories that is there.  Unless links are to be followed at once,
the path by which the shell came here is part of the way. -/
def tryDirectories (target : Chars) (prints physical : Bool) :
    List (Chars × Bool) → FileFault → Sh Nat
  | [], fault => do
    let extended ← isExtended
    refuse 1 (if extended then target ++ str ": " ++ fault.reason.toList
      else str "can't cd to " ++ target)
  | (path, found) :: rest, _ => do
    let s ← session
    let way := if path.head? == some '/' then path else s.here ++ '/' :: path
    let way := if physical then path else plainPath way
    match ← lift (.error .notFound) ((s.process []).node way) with
    | .ok (place, .directory) =>
      let way := if physical then Process.pathOf place else way
      moveTo place way
      if prints || found then say (way ++ ['\n']) else return 0
    | .ok _ => tryDirectories target prints physical rest .notADirectory
    | .error fault => tryDirectories target prints physical rest fault

/-- The command `cd` without a directory. -/
def goHome (physical : Bool) : Sh Nat := do
  let s ← session
  match s.value? (str "HOME") with
  | some home => tryDirectories home false physical [(orElse home ['.'], false)] .notFound
  | none =>
    if s.extended then refuse 1 (str "HOME not set")
    else return 0

def goBack (physical : Bool) : Sh Nat := do
  let s ← session
  match s.value? (str "OLDPWD") with
  | some path => tryDirectories path true physical [(path, false)] .notFound
  | none =>
    if s.extended then refuse 1 (str "OLDPWD not set")
    else tryDirectories [] true physical [(['.'], false)] .notFound

def cdCommand (words : List Chars) : Sh Nat := do
  let s ← session
  match splitOptions "LPe".toList words with
  | .error letter => illegalOption letter
  | .ok (given, words) =>
    let physical := (given.filter fun c => c == 'L' || c == 'P').getLast? == some 'P'
    match words with
    | [] => goHome physical
    | path :: more =>
      if path == ['-'] then goBack physical
      else if s.extended && !more.isEmpty then refuse 1 (str "too many arguments")
      else if path.isEmpty then return 0
      else tryDirectories path false physical (directoriesFor s path) .notFound

def pwdCommand (words : List Chars) : Sh Nat := do
  match splitOptions "LP".toList words with
  | .error letter => illegalOption letter
  | .ok (given, _) =>
    let s ← session
    say ((if given.getLast? == some 'P' then Process.pathOf s.directory else s.here) ++ ['\n'])

/-! ## The stack of directories -/

def withTilde (home : Option Chars) (path : Chars) : Chars :=
  match home with
  | some home =>
    if path == home then ['~']
    else if !home.isEmpty && Chars.startsWith path (home ++ ['/']) then '~' :: path.drop home.length
    else path
  | none => path

/-- The directories of the stack, the present one first, as options ask for them. -/
def showStack (letters : Chars) : Sh Nat := do
  let s ← session
  let home := if letters.contains 'l' then none else s.value? (str "HOME")
  let shown := (s.here :: s.stack).map (withTilde home)
  if letters.contains 'v' then
    say (shown.zipIdx.flatMap fun (path, i) =>
      Chars.padLeft 2 (Chars.ofNat i) ++ str "  " ++ path ++ ['\n'])
  else if letters.contains 'p' then say (Chars.unlines shown)
  else say ([' '].intercalate shown ++ ['\n'])

/-- The place in the stack that a word such as `+1` or `-0` names, counted from the present
directory. -/
def stackPlace? (size : Nat) (word : Chars) : Option (Option Nat) :=
  match word with
  | '+' :: digits => (Chars.toNat? digits).map fun n => if n < size then some n else none
  | '-' :: digits =>
    (Chars.toNat? digits).map fun n => if n < size then some (size - 1 - n) else none
  | _ => none

/-- Goes to a directory of the stack, under which the others stay. -/
def goInStack (path : Chars) (others : List Chars) : Sh Nat := do
  let status ← tryDirectories path false false [(path, false)] .notFound
  if status = 0 then
    modifySession fun s => { s with stack := others }
    showStack []
  else return status

def dirsCommand (words : List Chars) : Sh Nat := do
  let s ← session
  let all := s.here :: s.stack
  match words.head?.bind (stackPlace? all.length) with
  | some (some n) => say (withTilde (s.value? (str "HOME")) (all.getD n []) ++ ['\n'])
  | some none =>
    complain ((words.headD []).drop 1 ++ str ": directory stack index out of range")
    return 1
  | none =>
    match splitOptions "clpv".toList words with
    | .error letter => illegalOption letter
    | .ok (letters, _) =>
      if letters.contains 'c' then
        modifySession fun s => { s with stack := [] }
        return 0
      else showStack letters

def pushdCommand (words : List Chars) : Sh Nat := do
  let s ← session
  let all := s.here :: s.stack
  match words with
  | [] =>
    match s.stack with
    | [] => refuse 1 (str "no other directory")
    | top :: others => goInStack top (s.here :: others)
  | word :: _ =>
    match stackPlace? all.length word with
    | some (some n) =>
      let turned := all.drop n ++ all.take n
      goInStack (turned.headD []) (turned.drop 1)
    | some none => refuse 1 (word ++ str ": directory stack index out of range")
    | none => goInStack word (s.here :: s.stack)

def popdCommand (words : List Chars) : Sh Nat := do
  let s ← session
  let all := s.here :: s.stack
  match s.stack with
  | [] => refuse 1 (str "directory stack empty")
  | top :: others =>
    match words.head?.bind (stackPlace? all.length) with
    | some none => refuse 1 (words.headD [] ++ str ": directory stack index out of range")
    | none | some (some 0) => goInStack top others
    | some (some n) =>
      modifySession fun s => { s with stack := s.stack.eraseIdx (n - 1) }
      showStack []

/-- The rights that three bits take away from the full ones, as letters. -/
def rightsText (bits : Nat) : Chars :=
  (if bits &&& 4 == 0 then ['r'] else []) ++ (if bits &&& 2 == 0 then ['w'] else []) ++
    (if bits &&& 1 == 0 then ['x'] else [])

/-- The rights that a text of letters names, as three bits. -/
def rightsBits (text : Chars) : Nat :=
  (if text.contains 'r' then 4 else 0) + (if text.contains 'w' then 2 else 0) +
    (if text.contains 'x' then 1 else 0)

def maskAfter (mask : Nat) (clause : Chars) : Nat :=
  let who := clause.takeWhile "ugoa".toList.contains
  let isFor (c : Char) : Bool := who.isEmpty || who.contains 'a' || who.contains c
  match clause.drop who.length with
  | op :: rights =>
    let bits := rightsBits rights
    let change (old : Nat) : Nat :=
      if op == '=' then 7 - bits
      else if op == '+' then old &&& (7 - bits)
      else old ||| bits
    let part (c : Char) (old : Nat) : Nat := if isFor c then change old else old
    part 'u' (mask / 64) * 64 + part 'g' (mask / 8 % 8) * 8 + part 'o' (mask % 8)
  | [] => mask

def umaskCommand (words : List Chars) : Sh Nat := do
  let mask := (← session).mask
  match words with
  | [] => say (padZeros 4 (Nat.toDigits 8 mask) ++ ['\n'])
  | [['-', 'S']] =>
    say (str "u=" ++ rightsText (mask / 64) ++ str ",g=" ++ rightsText (mask / 8 % 8) ++
      str ",o=" ++ rightsText (mask % 8) ++ ['\n'])
  | word :: _ =>
    if word.all Char.isDigit then
      let (value, count) := Chars.leadingNumber 8 word 0 0
      if count < word.length || 511 < value then
        let extended ← isExtended
        refuse 1 (if extended then word ++ str ": octal number out of range"
          else str "Illegal number: " ++ word)
      else
        modifySession fun s => { s with mask := value }
        return 0
    else
      modifySession fun s => { s with mask := (word.splitOn ',').foldl maskAfter s.mask }
      return 0

/-! ## Names of commands -/

/-- What a name of a command stands for. -/
inductive Meaning where
  | keyword
  | function
  | special
  | builtin
  | program (path : Chars)
  | unknown

/-- Where a shell searches for programs if nothing is said about it. -/
def standardSearchPath : Chars :=
  str "/usr/local/sbin:/usr/local/bin:/usr/sbin:/usr/bin:/sbin:/bin"

def searchPath (s : Session) : Chars :=
  (s.value? (str "PATH")).getD standardSearchPath

def firstProgram (p : Process) : List Chars → Sh (Option Chars)
  | [] => return none
  | path :: rest => do
    match ← lift (.error .notFound) (p.runnableFile path) with
    | .ok _ => return some path
    | .error _ => firstProgram p rest

def meaning (name : Chars) : Sh Meaning := do
  let s ← session
  let text := String.ofList name
  if (reservedWords s.extended).contains text then return .keyword
  else if s.functions.any (·.1 == name) then return .function
  else if Read.specialBuiltins.contains text then return .special
  else if isBuiltin s.extended name then return .builtin
  else
    let paths := if name.contains '/' then [name] else Process.candidates (searchPath s) name
    match ← firstProgram (s.process []) paths with
    | some path => return .program path
    | none => return .unknown

/-- Says briefly what names stand for, and counts those that stand for something. -/
def briefly : List Chars → Sh Nat
  | [] => return 0
  | name :: rest => do
    match ← meaning name with
    | .unknown => briefly rest
    | .program path =>
      let _ ← say (path ++ ['\n'])
      return (← briefly rest) + 1
    | _ =>
      let _ ← say (name ++ ['\n'])
      return (← briefly rest) + 1

/-- Says in a sentence what a name stands for, and whether it stands for something. -/
def sentence (name : Chars) : Sh Bool := do
  let extended ← isExtended
  let line (text : Chars) : Sh Bool := do
    let _ ← say (name ++ text ++ ['\n'])
    return true
  match ← meaning name with
  | .keyword => line (str " is a shell keyword")
  | .function => line (str (if extended then " is a function" else " is a shell function"))
  | .special =>
    line (str (if extended then " is a shell builtin" else " is a special shell builtin"))
  | .builtin => line (str " is a shell builtin")
  | .program path => line (str " is " ++ path)
  | .unknown =>
    if extended then complain (name ++ str ": not found")
    else
      let _ ← line (str ": not found")
    return false

/-- Says in sentences what names stand for, and counts those that stand for something. -/
def atLength (names : List Chars) : Sh Nat := do
  let mut known := 0
  for name in names do
    if ← sentence name then known := known + 1
  return known

def byKind : List Chars → Nat → Sh Nat
  | [], status => return status
  | name :: rest, status => do
    let word ← match ← meaning name with
      | .keyword => pure "keyword"
      | .function => pure "function"
      | .special | .builtin => pure "builtin"
      | .program _ => pure "file"
      | .unknown => pure ""
    if word.isEmpty then byKind rest 1
    else
      let _ ← say (str word ++ ['\n'])
      byKind rest status

/-- Says in sentences all that a name stands for, and whether that is anything. -/
def allMeanings (name : Chars) : Sh Bool := do
  let s ← session
  let paths := if name.contains '/' then [name] else Process.candidates (searchPath s) name
  let mut lines : List String := []
  if (reservedWords true).contains (String.ofList name) then
    lines := lines ++ ["a shell keyword"]
  if s.functions.any (·.1 == name) then lines := lines ++ ["a function"]
  if isBuiltin true name then lines := lines ++ ["a shell builtin"]
  for path in paths do
    match ← lift (.error .notFound) ((s.process []).runnableFile path) with
    | .ok _ => lines := lines ++ [String.ofList path]
    | .error _ => pure ()
  for line in lines do
    let _ ← say (name ++ str " is " ++ str line ++ ['\n'])
  if lines.isEmpty then complain (name ++ str ": not found")
  return !lines.isEmpty

def typeCommand (words : List Chars) : Sh Nat := do
  match if ← isExtended then splitOptions "tapPf".toList words else .ok ([], words) with
  | .error letter => illegalOption letter
  | .ok (letters, words) =>
    if letters == ['a'] then
      let mut status := 0
      for name in words do
        if !(← allMeanings name) then status := 1
      return status
    else if letters.contains 't' then byKind words 0
    else if letters.contains 'p' || letters.contains 'P' then
      let s ← session
      let mut status := 0
      for name in words do
        match ← firstProgram (s.process []) (Process.candidates (searchPath s) name) with
        | some path => let _ ← say (path ++ ['\n'])
        | none => status := 1
      return status
    else
      let known ← atLength words
      let extended ← isExtended
      return if known = words.length then 0 else if extended then 1 else 127

/-- The command `hash`, which only looks whether there are programs of these names. -/
def hashCommand (words : List Chars) : Sh Nat := do
  match splitOptions "r".toList words with
  | .error letter => illegalOption letter
  | .ok (_, names) =>
    if words.isEmpty && (← isExtended) then say (str "hash: hash table empty\n")
    else
      let mut status := 0
      for name in names do
        match ← meaning name with
        | .unknown =>
          complain (name ++ str ": not found")
          status := 1
        | _ => pure ()
      return status

def aliasCommand (words : List Chars) : Sh Nat := do
  let s ← session
  let line (entry : Chars × Chars) : Chars :=
    str (if s.extended then "alias " else "") ++ entry.1 ++ '=' :: requote entry.2 ++ ['\n']
  if words.isEmpty then say ((s.aliases.mergeSort fun a b => Chars.le a.1 b.1).flatMap line)
  else
    let mut status := 0
    for word in words do
      let (name, value) := splitAssignment word
      match value with
      | some value =>
        modifySession fun s => { s with
          aliases := (name, value) :: s.aliases.filter (·.1 ≠ name) }
      | none =>
        match s.aliases.lookup name with
        | some value => let _ ← say (line (name, value))
        | none =>
          if s.extended then complain (name ++ str ": not found")
          else writeError (str "alias: " ++ name ++ str " not found\n")
          status := 1
    return status

def unaliasCommand (words : List Chars) : Sh Nat := do
  let s ← session
  if words == [['-', 'a']] then
    modifySession fun s => { s with aliases := [] }
    return 0
  else
    let missing := words.filter fun name => !s.aliases.any (·.1 == name)
    for name in missing do
      if s.extended then complain (name ++ str ": not found")
      else writeError (str "unalias: " ++ name ++ str " not found\n")
    modifySession fun s => { s with aliases := s.aliases.filter fun a => !words.contains a.1 }
    return if missing.isEmpty then 0 else 1

/-- A line of the command `shopt` about an option: how it stands, or the command that makes it
so. -/
def optionLine (on : Options) (ofSet asCommand : Bool) (name : String) : Chars :=
  let on := on.contains name
  if asCommand then
    let switch := if ofSet then (if on then "set -o " else "set +o ")
      else if on then "shopt -s " else "shopt -u "
    str switch ++ name.toList ++ ['\n']
  else Chars.padRight 15 name.toList ++ str (if on then "\ton\n" else "\toff\n")

def shoptCommand (words : List Chars) : Sh Nat := do
  match splitOptions "suqpo".toList words with
  | .error letter => illegalOption letter
  | .ok (letters, names) =>
    let ofSet := letters.contains 'o'
    let known := if ofSet then optionNames true else furtherOptions.map Prod.fst
    let sets := letters.contains 's'
    let unsets := letters.contains 'u'
    let unknown := names.filter fun name => !known.contains (String.ofList name)
    let chosen := (names.map String.ofList).filter known.contains
    if sets && unsets then
      complain (str "cannot set and unset shell options simultaneously")
      return 1
    else
      for name in unknown do
        complain (name ++ str (if ofSet then ": invalid option name"
          else ": invalid shell option name"))
      let s ← session
      let on := if ofSet then s.options else s.switches
      if names.isEmpty then
        let shown := known.filter fun name =>
          if sets then on.contains name
          else if unsets then !on.contains name
          else true
        if letters.contains 'q' then return 0
        else say (shown.flatMap (optionLine on ofSet (letters.contains 'p')))
      else if sets || unsets then
        for name in chosen do
          if ofSet then switchOption name sets else switchFurther name sets
        return if unknown.isEmpty then 0 else 1
      else
        if !letters.contains 'q' then
          let _ ← say (chosen.flatMap (optionLine on ofSet (letters.contains 'p')))
        return if unknown.isEmpty && chosen.all on.contains then 0 else 1

end Sh

end ProductLine.Shell
