/- # The interpreter — what commands do

A simple command is a function, a builtin command or a program.  Its words
are expanded first; then its streams are redirected, its assignments made,
and it is run.  `runCommand` runs any command over a `Level` that runs the
commands inside of it.
-/
import ProductLine.Shell.Builtin.Control
import ProductLine.Shell.Regex.Read

namespace ProductLine.Shell.Sh

/-! ## Assignments -/

/-- The value of a variable with a text added to it; a number is added to one. -/
def appended (name : Chars) (old new : Chars) : Sh Chars := do
  match (← session).setting? name with
  | some { integer := true, .. } =>
    let m ← needed (arithmetic old)
    let n ← needed (arithmetic new)
    return Chars.ofInt (Chars.wrap (m + n))
  | _ => return old ++ new

def expandedItems (c : Capturing) (items : List (Option Word × Word)) :
    Sh (List (Option Chars × List Chars)) :=
  items.mapM fun
    | (some index, w) => do
      let key ← expandText c index
      return (some key, [← expandValue c w])
    | (none, w) => do return (none, ← expandWords c [w])

/-- The items that expanded words give to an array; `next` is the next free index. -/
def arrayItems (name : Chars) :
    (items : List (Option Chars × List Chars)) → (next : Nat) → Sh (List (Chars × Chars))
  | [], _ => return []
  | (some index, values) :: rest, _ => do
    let key ← indexKey name index
    let more ← arrayItems name rest (Chars.digitsValue key + 1)
    return values.map (fun value => (key, value)) ++ more
  | (none, values) :: rest, next => do
    let own := values.zipIdx.map fun (value, i) => (Chars.ofNat (next + i), value)
    return own ++ (← arrayItems name rest (next + values.length))

/-- The items that a list of keys and values by turns gives to an array. -/
def keyedPairs : List Chars → List (Chars × Chars)
  | key :: value :: rest => (key, value) :: keyedPairs rest
  | [key] => [(key, [])]
  | [] => []

def keyedItems (c : Capturing) (name : Chars) (items : List (Option Word × Word)) :
    Sh (List (Chars × Chars)) := do
  match items with
  | (none, _) :: _ => return keyedPairs (← items.mapM fun item => expandValue c item.2)
  | _ =>
    let mut found : List (Chars × Chars) := []
    for (index, w) in items do
      match index with
      | some index =>
        let key ← expandText c index
        found := found ++ [(key, ← expandValue c w)]
      | none =>
        warn (name ++ str ": " ++ (← expandValue c w) ++
          str ": must use subscript when assigning associative array")
    return found

def assignOne (c : Capturing) : Assignment → Sh Unit
  | .scalar name none appends value => do
    let value ← expandValue c value
    let old := ((← session).value? name).getD []
    assign name (← if appends then appended name old value else pure value)
  | .scalar name (some index) appends value => do
    let value ← expandValue c value
    let key ← indexKey name (← expandText c index)
    if appends then
      let old := ((← itemsOf name).get? key).getD []
      assignItem name key (← appended name old value)
    else assignItem name key value
  | .array name appends items => do
    let s ← session
    if (s.setting? name).any Variable.readOnly then refuseReadOnly name
    else
      let keyed := (s.setting? name).any Variable.keyed
      let old : Items ← if appends then itemsOf name else pure { keyed := keyed }
      let new ← if keyed then keyedItems c name items
        else arrayItems name (← expandedItems c items) old.next
      spend (itemSteps * (new.length + 1))
      let v := (s.setting? name).getD {}
      let new ← new.mapM fun (key, value) => do return (key, ← asKept v value)
      adjust name fun v => { v with value := none, items := some (old.insertAll new) }

def settledAssignment (c : Capturing) : Assignment → Sh Assignment
  | .scalar name index appends value => do
    let value ← expandValue c value
    let index ← index.mapM fun w => do
      return [Piece.text true (← expandText c w)]
    return .scalar name index appends [.text true value]
  | a => return a

def assignedName : Assignment → Chars
  | .scalar name .. | .array name .. => name

/-! ## Words -/

def isAssignment (w : Word) : Bool :=
  match w with
  | .text false s :: _ =>
    let name := s.takeWhile Chars.isNameChar
    Chars.isName name &&
      (s[name.length]? == some '=' || Chars.startsWith (s.drop name.length) (str "+="))
  | _ => false

/-- A word in the form of an assignment, with the value expanded. -/
def expandAssigned (c : Capturing) (w : Word) : Sh Chars := do
  match w with
  | .text false s :: rest =>
    let name := s.takeWhile (· != '=')
    let tail := s.drop (name.length + 1)
    return name ++ '=' :: (← expandValue c (.text false tail :: rest))
  | w => expandValue c w

/-- The commands whose arguments may be assignments. -/
def declarers : List Chars :=
  ["export", "readonly", "local", "alias", "declare", "typeset"].map str

/-- The texts that the words of a command stand for; arguments that are assignments stay whole. -/
def commandWords (c : Capturing) : List Word → Sh (List Chars)
  | [] => return []
  | first :: rest => do
    match ← expandWords c [first] with
    | [] => commandWords c rest
    | name :: more =>
      if declarers.contains name then
        let arguments ← rest.mapM fun w => do
          if isAssignment w then return [← expandAssigned c w] else expandWords c [w]
        return name :: more ++ arguments.flatten
      else return name :: more ++ (← expandWords c rest)

def tracedWord (text : Chars) : Chars :=
  let isPlain := !text.isEmpty && text.all fun c =>
    c.isAlphanum || "_-./:,+@%^=".toList.contains c
  if isPlain then text else requoted text

/-- Writes the words of a command before it is run, if that is wanted. -/
def trace (assigned : List Chars) (words : List Chars) : Sh Unit := do
  if ← hasOption "xtrace" then
    let s ← session
    let front := (s.value? (str "PS4")).getD (str "+ ")
    let front := List.replicate s.depth (front.headD ' ') ++ front
    let value (name : Chars) : Chars := (s.value? name).getD []
    if s.extended then
      for name in assigned do
        let shown := if (value name).isEmpty then [] else tracedWord (value name)
        writeError (front ++ name ++ '=' :: shown ++ ['\n'])
      if !words.isEmpty then
        let shown := words.map fun w => if w == ['['] then str "'['" else tracedWord w
        writeError (front ++ [' '].intercalate shown ++ ['\n'])
    else
      let shown := assigned.map (fun name => name ++ '=' :: value name) ++ words
      if !shown.isEmpty then writeError (front ++ [' '].intercalate shown ++ ['\n'])

/-! ## Programs -/

/-- Why a program cannot be run, as a status and in words. -/
def programFault (extended : Bool) (name : Chars) (isDirectory : Bool) (fault : FileFault) :
    Nat × Chars :=
  let isMissing := fault == .notFound || fault == .notADirectory
  if extended then
    let reason := if isDirectory then str "Is a directory" else fault.reason.toList
    (if fault == .notFound then 127 else 126, name ++ str ": " ++ reason)
  else
    let reason := if isMissing then str "not found" else fault.reason.toList
    (if isMissing || fault == .nameTooLong || fault == .tooManyLevels then 127 else 126,
      name ++ str ": " ++ reason)

/-- What is at the first of some paths at which there is something that may be a program; if there
is none, whether something else was there. -/
def searchFirst (p : Process) (extended : Bool) : List Chars → (denied : Option FileFault) →
    Sh (Except (Option FileFault) Chars)
  | [], denied => return .error denied
  | path :: rest, denied => do
    match ← lift (.error .notFound) (p.node path) with
    | .ok (_, .file _) => return .ok path
    | .ok _ => searchFirst p extended rest (if extended then denied else some .permissionDenied)
    | .error fault =>
      let isMissing := fault == .notFound || fault == .notADirectory
      searchFirst p extended rest (if isMissing then denied else some fault)

def programPath (p : Process) (name : Chars) : Sh (Except (Nat × Chars) Chars) := do
  let s ← session
  if name.contains '/' then return .ok name
  else if s.extended && name.isEmpty then return .error (127, str ": command not found")
  else
    let list := searchPath s
    match ← searchFirst p s.extended (Process.candidates list name) none with
    | .ok path => return .ok path
    | .error denied =>
      if s.extended then
        let text := if list.isEmpty then ": No such file or directory" else ": command not found"
        return .error (127, name ++ str text)
      else
        match denied with
        | some fault => return .error (127, name ++ str ": " ++ fault.reason.toList)
        | none => return .error (127, name ++ str ": not found")

/-- Runs a program, for which the process of the shell is used if nothing comes after it. -/
def startProgram (below : Level) (takesOver : Bool) (program : Program) (words : List Chars) :
    Sh Ending := do
  let s ← session
  spend Machine.processSteps
  let number ← if takesOver then pure s.number else pure (← newProcess).1
  let p := { s.process words with
    number := number, parent := if takesOver then s.parent else s.number }
  let action := Machine.toEnd (below.start program p)
  if (← get).jobs.any (·.waiting.isSome) then
    let (_, trial) := action.run.run (← get).machine
    advanceJobs below trial.micros
  liftWithin (.exited 0) action (← get).machine.counts

/-- The status of the shell after a process that it has waited for; one that took over the process
of the shell ends it. -/
def settle (takesOver : Bool) (ending : Ending) : Sh Unit := do
  match takesOver, ending with
  | true, .signaled signal => throw (.killed signal)
  | _, ending =>
    reportEnding ending
    setStatus ending.status

def loadProgram (p : Process) (path : Chars) : Sh (Except FileFault (Program × List Chars)) := do
  match ← lift (.error .notFound) (p.load path) with
  | .error .notRunnable =>
    let shell := if ← isExtended then "bash" else "sh"
    return .ok (shell, str shell :: path :: p.words.drop 1)
  | result => return result

def runProgram (below : Level) (standing : Standing) (words : List Chars) : Sh Unit := do
  let s ← session
  let name := words.headD []
  let p := s.process words
  match ← programPath p name with
  | .error (status, complaint) =>
    warn complaint
    setStatus status
  | .ok path =>
    match ← loadProgram p path with
    | .ok (program, words) =>
      let takesOver := standing.last && s.traps.all (·.2.isEmpty)
      settle takesOver (← startProgram below takesOver program words)
    | .error fault =>
      let isDirectory := (← lift (.error .notFound) (p.node path)).toOption.any fun found =>
        found.2 == .directory
      let (status, complaint) := programFault s.extended name isDirectory fault
      warn complaint
      setStatus status

/-- Lets a program take the place of the shell; `shownName` is the name that it gets, if it is another
one. -/
def replaceShell (below : Level) (shownName : Chars) (words : List Chars) : Sh Nat := do
  let s ← session
  let name := words.headD []
  let p := s.process words
  match ← programPath p name with
  | .error (status, complaint) =>
    let complaint := if s.extended then str "exec: " ++ name ++ str ": not found" else complaint
    warn complaint
    setStatus (if s.extended then 127 else status)
    throw .exited
  | .ok path =>
    match ← loadProgram p path with
    | .ok (program, words) =>
      modifySession fun s => { s with traps := s.traps.filter (·.2.isEmpty) }
      let words := if shownName.isEmpty then words else shownName :: words.drop 1
      match ← startProgram below true program words with
      | .signaled signal => throw (.killed signal)
      | ending =>
        setStatus ending.status
        throw .exited
    | .error fault =>
      let isDirectory := (← lift (.error .notFound) (p.node path)).toOption.any fun found =>
        found.2 == .directory
      let (status, complaint) := programFault s.extended name isDirectory fault
      warn complaint
      if s.extended then
        let reason := if isDirectory then str "Is a directory" else fault.reason.toList
        warn (str "exec: " ++ name ++ str ": cannot execute: " ++ reason)
      setStatus status
      throw .exited

/-! ## Builtin commands and functions -/

/-- The command `exec`.  In the extended dialect the program may get another name, and no
environment. -/
def execCommand (below : Level) : List Chars → Sh Nat
  | [] => return 0
  | word :: rest => do
    if !(← isExtended) then replaceShell below [] (word :: rest)
    else
      match word, rest with
      | ['-', '-'], rest => if rest.isEmpty then return 0 else replaceShell below [] rest
      | ['-', 'a'], name :: rest => if rest.isEmpty then return 0 else replaceShell below name rest
      | ['-', 'c'], rest =>
        modifySession fun s => { s with bindings := s.bindings.map fun (name, v) =>
          (name, { v with exported := false }) }
        if rest.isEmpty then return 0 else replaceShell below [] rest
      | ['-', 'l'], rest =>
        if rest.isEmpty then return 0 else replaceShell below ('-' :: rest.headD []) rest
      | '-' :: letter :: _, _ => illegalOption letter
      | word, rest => replaceShell below [] (word :: rest)

/-- The command `caller`, which has nothing to say about functions that commands in words call. -/
def callerCommand (words : List Chars) : Sh Nat := do
  let s ← session
  if s.calls = 0 || !words.isEmpty then return 1
  else say (Chars.ofNat s.line ++ str " NULL\n")

/-- The letters of the options that builtin commands have, of those whose other words are not
looked at first. -/
def optionLettersOf : List (String × String) :=
  [("alias", "p"), ("disown", "har"), ("enable", "adnpsf"), ("eval", ""), ("fc", "elnrs0123456789"),
    ("help", "dms"), ("history", "cdanrwps"), ("jobs", "lnprsx"), ("suspend", "f"), ("times", ""),
    ("ulimit", "SHabcdefiklmnpqrstuvxPRT"), ("unalias", "a"), ("wait", "fnp"), ("getopts", ""),
    (".", ""), ("source", ""), ("trap", "lp"), ("umask", "pS"), ("bind", "lvpVPsSXf:q:u:m:r:x:")]

/-- The letter of an option at the front of the words that a builtin command of the extended dialect
does not have. -/
def wrongOption? (name : String) (words : List Chars) : Option Char :=
  match words.head?, optionLettersOf.lookup name with
  | some ('-' :: c :: _), some letters =>
    if c == '-' && words.head? == some ['-', '-'] || letters.toList.contains c then none else some c
  | _, _ => none

def dispatch (below : Level) (standing : Standing) (name : String) (words : List Chars) :
    Sh Nat :=
  match name with
  | "." | "source" => sourceCommand below standing words
  | "break" => loopCommand .broken words
  | "continue" => loopCommand .continued words
  | "eval" => evalCommand below standing words
  | "exec" => execCommand below words
  | "exit" => exitCommand words
  | "export" => exportCommand words
  | "readonly" => readonlyCommand words
  | "return" => returnCommand words
  | "set" => setCommand words
  | "shift" => shiftCommand words
  | "times" => say (str "0m0.000s 0m0.000s\n0m0.000s 0m0.000s\n")
  | "trap" => trapCommand words
  | "unset" => unsetCommand words
  | "local" => declareCommand true words
  | "declare" | "typeset" => declareCommand false words
  | "echo" => echoCommand words
  | "printf" => printfCommand words
  | "test" => testCommand false words
  | "[" => testCommand true words
  | "cd" | "chdir" => cdCommand words
  | "pwd" => pwdCommand words
  | "read" => readCommand words
  | "getopts" => getoptsCommand words
  | "umask" => umaskCommand words
  | "type" => typeCommand words
  | "alias" => aliasCommand words
  | "unalias" => unaliasCommand words
  | "wait" => waitCommand below words
  | "kill" => killCommand below words
  | "mapfile" | "readarray" => mapfileCommand words
  | "let" => letCommand words
  | "shopt" => shoptCommand words
  | "hash" => hashCommand words
  | "jobs" => do
    if ← isExtended then return 0 else jobsCommand below words
  | "ulimit" => if words.isEmpty then say (str "unlimited\n") else return 0
  | "dirs" => dirsCommand words
  | "pushd" => pushdCommand words
  | "popd" => popdCommand words
  | "disown" => if words.isEmpty then refuse 1 (str "current: no such job") else return 0
  | "suspend" => refuse 1 (str "cannot suspend: no job control")
  | "logout" => refuse 1 (str "not login shell: use \x60exit'")
  | "caller" => callerCommand words
  | "bg" | "fg" => do refuse 1 (str (if ← isExtended then "no job control" else "No current job"))
  | "false" => return 1
  | _ => return 0

/-- Refuses a second argument of the commands of the extended dialect that have one at most. -/
def refuseSecond (name : Chars) (words : List Chars) : Sh Unit := do
  let s ← session
  match words with
  | first :: _ :: _ =>
    let isLoop := name == str "break" || name == str "continue"
    let hasOne := isLoop || ["exit", "return", "shift"].contains (String.ofList name)
    if s.extended && hasOne && (Chars.toInt? first).isSome && !(isLoop && s.loops = 0) then
      complain (str "too many arguments")
      setStatus 1
      throw .exited
  | _ => return

/-- Runs a builtin command.  A fault ends it, and the shell too if the command is `special`. -/
def runBuiltin (below : Level) (standing : Standing) (special : Bool) (name : Chars)
    (words : List Chars) : Sh Unit := do
  let before := (← session).builtin
  modifySession fun s => { s with builtin := name }
  try
    refuseSecond name words
    let wrong ← if ← isExtended then pure (wrongOption? (String.ofList name) words) else pure none
    let status ← match wrong with
      | some letter => illegalOption letter
      | none => dispatch below standing (String.ofList name) words
    modifySession fun s => { s with builtin := before, status := status }
  catch stop =>
    modifySession fun s => { s with builtin := before }
    let extended ← isExtended
    if stop == .fault && (extended || !special) then return
    else throw stop

/-- Does what a trap about commands says, during which there is no such trap. -/
def runOwnTrap (below : Level) (trap : String) : Sh Unit := do
  let s ← session
  match if s.extended && !s.traps.isEmpty then s.traps.lookup trap else none with
  | none => return
  | some action =>
    modifySession fun s => { s with traps := s.traps.filter (·.1 ≠ trap) }
    runTrap below action
    modifySession fun after => { after with traps := s.traps }

/-- How deep calls of functions may be nested in the basic dialect. -/
def maxCalls : Nat := 1000

/-- Calls a function.  Traps that it does not keep are set again after it, unless it has set them
itself. -/
def callFunction (below : Level) (standing : Standing) (name : Chars) (body : Command)
    (words : List Chars) : Sh Unit := do
  let s ← session
  if !s.extended && maxCalls ≤ s.calls then
    fail (str "Maximum function recursion depth (" ++ Chars.ofNat maxCalls ++ str ") reached")
  let (hidden, kept) := s.traps.partition fun trap => s.extended && isHidden s trap.1
  modifySession fun s => { s with
    arguments := words, calls := s.calls + 1, loops := 0, locals := [] :: s.locals
    callers := name :: s.callers, traps := kept, offset := 0
    source := if s.source.isEmpty && s.fromWords then str "environment" else s.source }
  let leave : Sh Unit := do
    restoreVariables ((← session).locals.headD [])
    modifySession fun after => { after with
      arguments := s.arguments, calls := s.calls, loops := s.loops, locals := after.locals.drop 1
      callers := s.callers, source := s.source, offset := s.offset
      traps := after.traps ++ hidden.filter fun trap => !after.traps.any (·.1 == trap.1) }
  if let .redirected line .. := body then reach line
  try
    below.run { tested := standing.tested } body
    runOwnTrap below "RETURN"
    leave
  catch stop =>
    if stop == .returned then
      runOwnTrap below "RETURN"
      leave
    else
      leave
      throw stop

/-- What the command `command` or `builtin` is asked to do. -/
inductive Indirect where
  | run (words : List Chars)
  | brief (names : List Chars)
  | verbose (names : List Chars)
  | wrong (letter : Char)

def indirect (words : List Chars) : Indirect :=
  match splitOptions "pvV".toList words with
  | .error letter => .wrong letter
  | .ok (letters, words) =>
    if letters.contains 'v' then .brief words
    else if letters.contains 'V' then .verbose words
    else .run words

/-- Says what names stand for, as `command -v` does. -/
def explain (isBrief : Bool) (names : List Chars) : Sh Nat := do
  let extended ← isExtended
  let names := if extended then names else names.take 1
  let known ← if isBrief then briefly names else atLength names
  return if 0 < known then 0 else if extended then 1 else if names.isEmpty then 0 else 127

/-- Runs a command whose words are known; `direct` says that functions are left out, and that
faults of special commands do not end the shell.  `fuel` bounds the commands in front of it that
only say how to run it. -/
def runWords (below : Level) (standing : Standing) :
    (fuel : Nat) → (direct : Bool) → List Chars → Sh Unit
  | 0, _, _ => return
  | _, _, [] => setStatus 0
  | fuel + 1, direct, name :: words => do
    let s ← session
    match if direct then none else s.functions.lookup name with
    | some body => callFunction below standing name body words
    | none =>
      let isSpecial := Read.specialBuiltins.contains (String.ofList name)
      if name == str "command" || (s.extended && name == str "builtin") then
        modifySession fun s => { s with builtin := name }
        let leave : Sh Unit := modifySession fun after => { after with builtin := s.builtin }
        match indirect words with
        | .run words =>
          leave
          let wanted := words.headD []
          if name == str "builtin" && !wanted.isEmpty && !isBuiltin true wanted then
            warn (str "builtin: " ++ wanted ++ str ": not a shell builtin")
            setStatus 1
          else runWords below standing fuel true words
        | .brief names =>
          let status ← explain true names
          leave
          setStatus status
        | .verbose names =>
          let status ← explain false names
          leave
          setStatus status
        | .wrong letter =>
          try
            let status ← illegalOption letter
            setStatus status
          catch _ => pure ()
          leave
      else if isBuiltin s.extended name then
        runBuiltin below standing (isSpecial && !direct) name words
      else runProgram below standing (name :: words)

/-! ## Simple commands -/

/-- Ends the shell after a failure, if that is wanted and nobody looks at it. -/
def checkExit (below : Level) (standing : Standing) : Sh Unit := do
  let s ← session
  if s.status ≠ 0 && !standing.tested then
    runOwnTrap below "ERR"
    if s.options.contains "errexit" then
      setStatus (s.trapStatus.getD s.status)
      throw .exited

/-- Makes an assignment for the time of a command; in the extended dialect the variable is a new
one, which has none of the attributes of the old one. -/
def assignForCommand (c : Capturing) (a : Assignment) : Sh Unit := do
  match ← isExtended, a with
  | true, .scalar name none appends value =>
    let value ← expandValue c value
    let old := ((← session).value? name).getD []
    let value ← if appends then appended name old value else pure value
    modifySession fun s => s.setVariable name { value := some value, exported := true }
  | _, a =>
    assignOne c a
    adjust (assignedName a) fun v => { v with exported := true }

/-- Runs a body with assignments that last no longer than it. -/
def withAssignments (c : Capturing) (assignments : List Assignment) (words : List Chars)
    (traced : Sh Unit → Sh Unit) (body : Sh Unit) : Sh Unit := do
  if assignments.isEmpty then
    traced (trace [] words)
    body
  else
    let s ← session
    let names := assignments.map assignedName
    let rec within : (saved : List (Chars × Option Variable)) → List Assignment → Sh Unit
      | saved, [] => do
        let leave : Sh Unit := restoreVariables saved
        traced (trace names words)
        try
          body
          leave
        catch stop =>
          leave
          throw stop
      | saved, a :: rest => do
        let name := assignedName a
        if s.extended && ((← session).setting? name).any Variable.readOnly then
          warn (name ++ str ": readonly variable")
          within saved rest
        else
          let settled ← try
              let a ← settledAssignment c a
              pure a
            catch stop =>
              restoreVariables saved
              throw stop
          let saved := (name, (← session).bindings.lookup name) :: saved
          try
            assignForCommand c settled
          catch stop =>
            restoreVariables saved
            throw stop
          within saved rest
    within [] assignments

/-- The command changes the streams of the shell itself. -/
def keepsStreams (words : List Chars) : Bool :=
  words == [str "exec"] || words == [str "command", str "exec"]

/-- Forgets the streams that came after `counts`, unless a command in the background may have
one. -/
def forgetStreams (counts : Nat × Nat) : Sh Unit := do
  if !(← get).jobs.any (·.waiting.isSome) then shrinkMachine counts

/-- The words name a program, and no function or builtin command. -/
def namesProgram (s : Session) (words : List Chars) : Bool :=
  match words.dropWhile (· == str "command") with
  | [] => false
  | name :: _ => !isBuiltin s.extended name && !s.functions.any (·.1 == name)

/-- Carries out the redirections of a program.  In the extended dialect that is done in the process of
the program, so that variables keep their values, and a fault ends that process only. -/
def redirectProgram (c : Capturing) (redirections : List Redirection) : Sh Bool := do
  let bindings := (← session).bindings
  let leave : Sh Unit := modifySession fun s => { s with bindings := bindings }
  try
    let isDone ← redirect c redirections
    leave
    if !isDone then setStatus 1
    return isDone
  catch stop =>
    leave
    if [.fault, .exited, .givenUp].contains stop then return false else throw stop

def redirectCommand (c : Capturing) (words : List Chars) (redirections : List Redirection) :
    Sh Bool := do
  let s ← session
  if redirections.isEmpty then return true
  else if s.extended && namesProgram s words then redirectProgram c redirections
  else
    let isDone ← redirect c redirections
    if !isDone then setStatus (if s.extended then 1 else 2)
    return isDone

/-- Runs a simple command; `counts` are those of the streams and pipes before it. -/
def runSimpleWithin (below : Level) (standing : Standing) (line : Nat)
    (assignments : List Assignment) (words : List Word) (redirections : List Redirection)
    (counts : Nat × Nat) : Sh Unit := do
  modifySession fun s => { s with line := line + s.offset, captured := none }
  runOwnTrap below "DEBUG"
  let c := capturing below
  let words ← commandWords c words
  spend (Machine.commandSteps + Machine.wordSteps * words.length)
  let s ← session
  let name := words.headD []
  let isFunction := s.functions.any (·.1 == name)
  let isSpecial := !isFunction && Read.specialBuiltins.contains (String.ofList name)
  if !(← redirectCommand c words redirections) then
    restoreStreams s.streams
    if isSpecial && !s.extended then throw .fault
  else
    let leave : Sh Unit :=
      if keepsStreams words then pure ()
      else do
        restoreStreams s.streams
        if !redirections.isEmpty then forgetStreams counts
    let onStreams (tracing : Sh Unit) : Sh Unit := do
      if ← hasOption "xtrace" then
        let present := (← session).streams
        restoreStreams s.streams
        tracing
        restoreStreams present
    let (arrays, plain) := assignments.partition fun
      | .array .. => !words.isEmpty
      | _ => false
    let run : Sh Unit :=
      if words.isEmpty then do
        for a in assignments do assignOne c a
        onStreams (trace (assignments.map assignedName) [])
        modifySession fun s => { s with status := s.captured.getD 0 }
      else if isSpecial && !s.extended then do
        for a in plain do assignOne c a
        onStreams (trace (plain.map assignedName) words)
        runWords below standing (words.length + 1) false words
      else
        let names := if declarers.contains name then arrays.map assignedName else []
        withAssignments c plain words onStreams do
          runWords below standing (words.length + 1) false (words ++ names)
          for a in arrays do assignOne c a
    try
      run
      leave
      if s.extended then
        modifySession fun s => { s with lastWord := words.getLastD [] }
    catch stop =>
      leave
      throw stop

def runSimple (below : Level) (standing : Standing) (line : Nat) (assignments : List Assignment)
    (words : List Word) (redirections : List Redirection) : Sh Unit := do
  runSimpleWithin below standing line assignments words redirections (← get).machine.counts

/-! ## Conditions -/

/-- The value of a body in which complaints about arithmetic name the command; nothing after a fault,
behind which the shell goes on. -/
def surviving {α : Type} (name : String) (body : Sh α) : Sh (Option α) := do
  let before := (← session).builtin
  modifySession fun s => { s with builtin := str name }
  let leave : Sh Unit := modifySession fun s => { s with builtin := before }
  try
    let value ← body
    leave
    return some value
  catch stop =>
    leave
    if stop == .fault then return none else throw stop

/-- The value of a comparison of the extended dialect. -/
def compareWords (c : Capturing) (view : FileView) (left : Word) (op : Chars) (right : Word) :
    Sh Bool := do
  let a ← expandText c left
  match String.ofList op with
  | "=" | "==" => return (← expandPattern c true right).matches a
  | "!=" => return !(← expandPattern c true right).matches a
  | "=~" =>
    let folds ← hasSwitch "nocasematch"
    spend (2 * Machine.commandSteps)
    match Regex.read { extendedRegex with closingIsText := true } (← expandRegex c right) with
    | .error _ =>
      setStatus 2
      return false
    | .ok regex =>
      let subject : Subject := { text := a.toArray, foldsCase := folds }
      match regex.search subject 0 with
      | some (i, j, groups) =>
        let texts := subject.part i j ::
          (List.range regex.groupCount).map fun k => Regex.groupText subject groups (k + 1)
        adjust (str "BASH_REMATCH") fun v => { v with
          value := none
          items := some (.ofTexts texts) }
        return true
      | none => return false
  | "<" => return Chars.compare a (← expandText c right) == .lt
  | ">" => return Chars.compare a (← expandText c right) == .gt
  | op =>
    let b ← expandText c right
    if ["-nt", "-ot", "-ef"].contains op then
      return (binaryValue view (fun _ => .ok 0) a op b).toOption.getD false
    else
      match ← surviving "[[" (return (← arithmetic a, ← arithmetic b)) with
      | none => return false
      | some (m, n) =>
        return (binaryValue view (fun text => .ok ((Chars.toInt? text).getD 0)) (Chars.ofInt m) op
          (Chars.ofInt n)).toOption.getD false

/-- The value of a condition of the extended dialect. -/
def testValue (c : Capturing) (view : FileView) : Test → Sh Bool
  | .word w => do return !(← expandText c w).isEmpty
  | .unary op w => do
    let text ← expandText c w
    if op == str "-v" then
      match splitItem? text with
      | some (name, ['@']) => return !(← itemsOf name).isEmpty
      | some (name, key) =>
        match ← indexKey? name key with
        | some key => return ((← itemsOf name).get? key).isSome
        | none => return false
      | none => return (← parameter? text).isSome
    else if op == str "-o" then hasOption (String.ofList text)
    else return unaryValue view (String.ofList op) text
  | .binary left op right => compareWords c view left op right
  | .not t => do return !(← testValue c view t)
  | .and a b => do
    if ← testValue c view a then testValue c view b else return false
  | .or a b => do
    if ← testValue c view a then return true else testValue c view b

/-! ## Compound commands -/

/-- Runs a body inside of a loop, and says whether the loop goes on. -/
def inLoop (body : Sh Unit) : Sh Bool := do
  let loops := (← session).loops
  modifySession fun s => { s with loops := loops + 1 }
  let leave : Sh Unit := modifySession fun s => { s with loops := loops }
  try
    body
    leave
    return true
  catch stop =>
    leave
    match stop with
    | .broken (n + 2) => throw (.broken (n + 1))
    | .continued (n + 2) => throw (.continued (n + 1))
    | .broken _ => return false
    | .continued _ => return true
    | stop => throw stop

/-- Runs a loop with a condition; `status` is that of the last round.  `fuel` bounds the rounds. -/
def runLoop (below : Level) (standing : Standing) (untilTrue : Bool) (test body : Command) :
    (fuel : Nat) → (status : Nat) → Sh Unit
  | 0, _ => throw (.endless true)
  | fuel + 1, status => do
    spend Machine.loopSteps
    let tested ← inLoopTest
    match tested with
    | none => setStatus status
    | some false => runLoop below standing untilTrue test body fuel status
    | some true =>
      if ((← session).status = 0) == untilTrue then setStatus status
      else
        let goesOn ← inLoop (below.run { tested := standing.tested } body)
        let status := (← session).status
        if goesOn then runLoop below standing untilTrue test body fuel status
where
  /-- Runs the condition: whether it was run to its end, or that the loop is left. -/
  inLoopTest : Sh (Option Bool) := do
    let loops := (← session).loops
    modifySession fun s => { s with loops := loops + 1 }
    let leave : Sh Unit := modifySession fun s => { s with loops := loops }
    try
      below.run { tested := true } test
      leave
      return some true
    catch stop =>
      leave
      match stop with
      | .broken (n + 2) => throw (.broken (n + 1))
      | .continued (n + 2) => throw (.continued (n + 1))
      | .broken _ => return none
      | .continued _ => return some false
      | stop => throw stop

/-- In the extended dialect a loop ends without harm if its variable cannot be set. -/
def refusesItem (name : Chars) : Sh Bool := do
  let s ← session
  if !s.extended then return false
  else if !Chars.isName name then
    warn ('\x60' :: name ++ str "': not a valid identifier")
    setStatus 1
    return true
  else if (s.setting? name).any Variable.readOnly then
    warn (name ++ str ": readonly variable")
    setStatus 1
    return true
  else return false

def runForEach (below : Level) (standing : Standing) (name : Chars) (body : Command) :
    List Chars → Sh Unit
  | [] => return
  | value :: rest => do
    spend Machine.loopSteps
    runOwnTrap below "DEBUG"
    if ← refusesItem name then return
    assign name value
    if ← inLoop (below.run { tested := standing.tested } body) then
      runForEach below standing name body rest

def matchesAny (c : Capturing) (subject : Chars) : List Word → Sh Bool
  | [] => return false
  | w :: rest => do
    if (← expandPattern c false w).matches subject then return true else matchesAny c subject rest

/-- Runs the branches of a choice from the first one that matches on, and says whether there is one;
`entered` says that a branch is run without its patterns being looked at. -/
def runChoice (below : Level) (standing : Standing) (c : Capturing) (subject : Chars) :
    List (List Word × Option Command × BranchEnd) → (entered : Bool) → Sh Bool
  | [], entered => return entered
  | (patterns, body, ending) :: rest, entered => do
    if ← if entered then pure true else matchesAny c subject patterns then
      match body with
      | some body => below.run standing body
      | none => setStatus 0
      match ending with
      | .done => return true
      | .fallThrough => runChoice below standing c subject rest true
      | .testNext => do
        let _ ← runChoice below standing c subject rest false
        return true
    else runChoice below standing c subject rest false

def arithmeticTruth (c : Capturing) (body : Word) : Sh Bool := do
  let text ← expandText c body
  if text.all Chars.isSpace then return true else return (← arithmetic text) ≠ 0

/-- Runs a loop with three expressions.  `fuel` bounds the rounds. -/
def runForArithmetic (below : Level) (standing : Standing) (c : Capturing) (test next : Word)
    (body : Command) : (fuel : Nat) → Sh Unit
  | 0 => throw (.endless true)
  | fuel + 1 => do
    spend Machine.loopSteps
    if (← surviving "((" (arithmeticTruth c test)) == some true then
      if ← inLoop (below.run { tested := standing.tested } body) then
        if (← surviving "((" (arithmeticTruth c next)).isSome then
          runForArithmetic below standing c test next body fuel

def runRedirected (below : Level) (standing : Standing) (line : Nat) (body : Command)
    (redirections : List Redirection) : Sh Unit := do
  if line ≠ 0 && !(← isExtended) then reach line
  let streams := (← session).streams
  if ← redirect (capturing below) redirections then
    try
      below.run { tested := standing.tested } body
      restoreStreams streams
    catch stop =>
      restoreStreams streams
      throw stop
  else
    restoreStreams streams
    setStatus (if ← isExtended then 1 else 2)

/-- Runs a command in a subshell; if nothing comes after it, its end is that of the shell. -/
def runSubshell (below : Level) (standing : Standing) (body : Command) : Sh Unit := do
  let s ← session
  let takesOver := standing.last && s.traps.all (·.2.isEmpty)
  let number := s.number
  let adjust (child : Session) : Session :=
    if takesOver then { child with number := number } else child
  if takesOver then
    let child := adjust (deeper (childSession s number))
    match ← runAs below (finish below) child { standing with last := true } body with
    | .endless stalled => throw (.endless stalled)
    | .signaled signal => throw (.killed signal)
    | ending => setStatus ending.status
  else
    let ending ← runChild below { standing with last := true } (adjust ∘ deeper) body
    setStatus ending.status

def steps : Command → List Command
  | .sequence _ first second => steps first ++ steps second
  | command => [command]

def runSteps (below : Level) (standing : Standing) : List Command → Sh Unit
  | [] => return
  | [last] => below.run standing last
  | command :: rest => do
    below.run { standing with last := false } command
    runSteps below standing rest

def setTruth (value : Bool) : Sh Unit :=
  setStatus (if value then 0 else 1)

def runCommand (below : Level) (standing : Standing) (command : Command) : Sh Unit := do
  if ← hasOption "noexec" then return
  let after : Sh Unit := do
    receiveSignals below 100
    checkExit below standing
  match command with
  | .simple line assignments words redirections =>
    let before := (← session).line
    runSimple below standing line assignments words redirections
    after
    if ← isExtended then modifySession fun s => { s with line := before }
  | .pipeline commands =>
    runPipeline below standing commands
    after
  | .subshell line body =>
    reach line
    runSubshell below standing body
    after
  | .inverted body =>
    below.run { tested := true } body
    setTruth ((← session).status ≠ 0)
  | .background body => startJob body
  | .redirected line body redirections =>
    runRedirected below standing line body redirections
    receiveSignals below 100
  | .sequence .. => runSteps below standing (steps command)
  | .both first second =>
    below.run { tested := true } first
    if (← session).status = 0 then below.run standing second
  | .either first second =>
    below.run { tested := true } first
    if (← session).status ≠ 0 then below.run standing second
  | .conditional test yes no =>
    below.run { tested := true } test
    if (← session).status = 0 then below.run standing yes
    else
      match no with
      | some no => below.run standing no
      | none => setStatus 0
  | .loop untilTrue test body =>
    runLoop below standing untilTrue test body ((← get).machine.steps + 1) 0
  | .forEach line name items body =>
    reach line
    let values ← match items with
      | some words => expandWords (capturing below) words
      | none => pure (← session).arguments
    setStatus 0
    runForEach below standing name body values
  | .choice line subject branches =>
    spend Machine.commandSteps
    reach line
    let c := capturing below
    let subject ← expandText c subject
    if !(← runChoice below standing c subject branches false) then setStatus 0
  | .define name body =>
    modifySession fun s => { s with
      functions := (name, body) :: s.functions.filter (·.1 ≠ name), status := 0 }
  | .condition line test =>
    spend (2 * Machine.commandSteps)
    reach line
    runOwnTrap below "DEBUG"
    let s ← session
    let view ← lift { files := (← get).machine.files, directory := s.directory }
      (s.process []).fileView
    setStatus 0
    let value ← testValue (capturing below) view test
    if (← session).status = 0 then setTruth value
    after
  | .arithmetic line body =>
    spend Machine.commandSteps
    reach line
    let text ← expandText (capturing below) body
    match ← surviving "((" (arithmetic text) with
    | some n => setTruth (n ≠ 0)
    | none => pure ()
    after
  | .forArithmetic line start test next body =>
    reach line
    let c := capturing below
    match ← surviving "((" (arithmeticTruth c start) with
    | none => return
    | some _ =>
      setStatus 0
      runForArithmetic below standing c test next body ((← get).machine.steps + 1)
  | .timed body => below.run standing body

end ProductLine.Shell.Sh
