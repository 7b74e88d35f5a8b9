/- # Builtin commands that control the shell — its loops, its end, and its processes

These commands leave loops, functions and the shell, run further texts of
commands, set traps, wait for jobs and send signals.
-/
import ProductLine.Shell.Builtin.Report
import ProductLine.Shell.Running

namespace ProductLine.Shell.Sh

/-! ## Leaving -/

/-- The complaint about a command that stands outside of every loop. -/
def outsideLoop : Sh Nat := do
  if ← isExtended then
    complain (str "only meaningful in a \x60for', \x60while', or \x60until' loop")
  return 0

def loopCommand (stop : Nat → Stop) (words : List Chars) : Sh Nat := do
  let s ← session
  if s.extended then
    if s.loops = 0 then outsideLoop
    else
      match words.head?.map Chars.toInt? with
      | none =>
        setStatus 0
        throw (stop 1)
      | some none =>
        complain (words.headD [] ++ str ": numeric argument required")
        setStatus 128
        throw .exited
      | some (some n) =>
        if n ≤ 0 then
          complain (words.headD [] ++ str ": loop count out of range")
          setStatus 1
          throw (.broken s.loops)
        else
          setStatus 0
          throw (stop (min n.toNat s.loops))
  else
    let n ← match words with
      | [] => pure 1
      | word :: _ => numberArgument word
    if n = 0 then fail (str "Illegal number: " ++ words.headD [])
    else if s.loops = 0 then return 0
    else
      setStatus 0
      throw (stop (min n s.loops))

def statusArgument (present : Nat) (words : List Chars) : Sh (Option Nat) := do
  match words with
  | [] => return some present
  | word :: _ =>
    if ← isExtended then
      match Chars.toInt? word with
      | some n => return some (n % 256).toNat
      | none =>
        complain (word ++ str ": numeric argument required")
        return none
    else return some (← numberArgument word)

def exitCommand (words : List Chars) : Sh Nat := do
  let s ← session
  match ← statusArgument (s.trapStatus.getD s.status) words with
  | some status => exit (status % 256)
  | none => exit 2

def returnCommand (words : List Chars) : Sh Nat := do
  let s ← session
  if s.extended && s.calls = 0 && s.sourced = 0 then
    let _ ← statusArgument 0 words
    complain (str "can only \x60return' from a function or sourced script")
    return 2
  else
    let status ← statusArgument s.status words
    setStatus (status.getD 2)
    throw .returned

/-! ## Further texts -/

def evalCommand (below : Level) (standing : Standing) (words : List Chars) : Sh Nat := do
  let text := [' '].intercalate words
  if text.all Chars.isSpace then return 0
  else
    runTextHere below { tested := standing.tested } (str "eval: ") text
    return (← session).status

/-- The path of a file to read commands from: a path with a slash, or a name that is searched
for. -/
def sourcePath (name : Chars) : Sh (Option Chars) := do
  if name.contains '/' then return some name
  else
    let s ← session
    let p := s.process []
    let places := Process.candidates (searchPath s) name
    let mut found : Option Chars := none
    for path in places ++ (if s.extended then [name] else []) do
      if found.isNone then
        match ← lift (.error .notFound) (p.node path) with
        | .ok (_, .file _) => found := some path
        | _ => pure ()
    return found

/-- Runs the commands of a file in the present shell. -/
def sourceFile (below : Level) (standing : Standing) (path : Chars) (arguments : List Chars) :
    Sh Nat := do
  let s ← session
  match ← lift (.error .notFound) ((s.process []).readPath path) with
  | .error .isADirectory =>
    if s.extended then
      complain (path ++ str ": is a directory")
      return 1
    else return 0
  | .error fault =>
    if s.extended then
      warn (path ++ str ": " ++ fault.reason.toList)
      return 1
    else fail (openFault false .read path fault)
  | .ok text =>
    let given := s.extended && !arguments.isEmpty
    modifySession fun s => { s with
      sourced := s.sourced + 1, source := path, builtin := path
      arguments := if given then arguments else s.arguments }
    let leave : Sh Unit := modifySession fun after => { after with
      sourced := s.sourced, source := s.source
      arguments := if given then s.arguments else after.arguments }
    try runText below { tested := standing.tested } [] text
    catch stop =>
      leave
      if stop ≠ .returned then throw stop
    leave
    if text.all Chars.isSpace then return 0
    else return (← session).status

def sourceCommand (below : Level) (standing : Standing) (words : List Chars) : Sh Nat := do
  match words with
  | [] =>
    if ← isExtended then
      complain (str "filename argument required")
      showUsage
      return 2
    else return 0
  | name :: arguments =>
    match ← sourcePath name with
    | some path => sourceFile below standing path arguments
    | none =>
      if ← isExtended then
        warn (name ++ str ": No such file or directory")
        return 1
      else fail (name ++ str ": not found")

/-! ## Traps -/

/-- The name under which a condition of a trap is kept. -/
def condition? (text : Chars) : Sh (Option String) := do
  let extended ← isExtended
  if extended && (text == str "ERR" || text == str "DEBUG" || text == str "RETURN") then
    return some (String.ofList text)
  else return (signalOf? extended text).map signalName

/-- Lists the traps that are set, or those of some conditions. -/
def listTraps (words : List Chars) : Sh Nat := do
  let s ← session
  let wanted ← words.filterMapM condition?
  let order := ("EXIT" :: signalNames ++ ["ERR", "DEBUG", "RETURN"]).filter fun name =>
    words.isEmpty || wanted.contains name
  let lines := order.filterMap fun name =>
    (s.traps.lookup name).map fun action =>
      let shown := if s.extended && signalNames.contains name then "SIG" ++ name else name
      str "trap -- " ++ (if s.extended then requoted action else requote action) ++ ' ' ::
        shown.toList ++ ['\n']
  say lines.flatten

def setTraps (action : Option Chars) : List Chars → (status : Nat) → Sh Nat
  | [], status => return status
  | word :: rest, status => do
    match ← condition? word with
    | none =>
      if ← isExtended then
        complain (word ++ str ": invalid signal specification")
        setTraps action rest 1
      else
        writeError (str "trap: " ++ word ++ str ": bad trap\n")
        return 1
    | some name =>
      modifySession fun s =>
        let others := s.traps.filter (·.1 ≠ name)
        { s with traps := match action with
          | some action => (name, action) :: others
          | none => others }
      setTraps action rest status

/-- The names of the signals beyond those that have names of their own, from the first on. -/
def realTimeNames : List String :=
  "RTMIN" :: (List.range 15).map (fun i => "RTMIN+" ++ toString (i + 1)) ++
    (List.range 14).map (fun i => "RTMAX-" ++ toString (14 - i)) ++ ["RTMAX"]

def listAllSignals : Sh Nat := do
  if ← isExtended then
    let numbered := (signalNames.zipIdx 1) ++ realTimeNames.zipIdx 34
    let entries := numbered.zipIdx.map fun ((name, n), i) =>
      let isEnd := i % 5 = 4
      Chars.padLeft 2 (Chars.ofNat n) ++ str ") SIG" ++ name.toList ++
        (if isEnd then ['\n'] else ['\t'])
    let last := if numbered.length % 5 = 0 then [] else ['\n']
    say (entries.flatten ++ last)
  else
    let names := "0" :: (signalNames.map fun name => if name == "STKFLT" then "16" else name) ++
      ["32", "33"] ++ realTimeNames
    say (names.flatMap fun name => name.toList ++ ['\n'])

def listSignals (words : List Chars) : Sh Nat := do
  if words.isEmpty then listAllSignals
  else
    let mut status := 0
    for word in words do
      match Chars.toNat? word with
      | some n => status ← say (str (signalName (if 128 < n then n - 128 else n)) ++ ['\n'])
      | none =>
        if !(← isExtended) then fail (str "Illegal number: " ++ word)
        match signalOf? true word with
        | some n => status ← say (Chars.ofNat n ++ ['\n'])
        | none => status ← refuse 1 (word ++ str ": invalid signal specification")
    return status

def trapCommand (words : List Chars) : Sh Nat := do
  let words := if words.head? == some (str "--") then words.drop 1 else words
  match words with
  | [] => listTraps []
  | first :: rest =>
    if first == str "-l" then listSignals []
    else if first == str "-p" then listTraps rest
    else if rest.isEmpty || (Chars.toNat? first).isSome then setTraps none words 0
    else setTraps (if first == ['-'] then none else some first) rest 0

/-! ## Jobs and signals -/

def awaitAll (below : Level) : Sh Unit := do
  for job in (← get).jobs do
    let _ ← awaitJob below job.number
  if ← isExtended then forgetJobs fun _ => true else markJobs fun _ => true

def jobOf? (word : Chars) : Sh (Option Job) := do
  let jobs := (← get).jobs
  match word with
  | '%' :: rest =>
    match Chars.toNat? rest with
    | some n => return jobs.find? (·.place == n)
    | none => return if rest.isEmpty || rest == ['%'] || rest == ['+'] then jobs.getLast? else none
  | _ => return (Chars.toNat? word).bind fun n => jobs.find? (·.number == n)

def awaitNamed (below : Level) (word : Chars) : Sh Nat := do
  let extended ← isExtended
  let found := (← jobOf? word).filter fun job =>
    !(extended && job.waited && word.head? == some '%')
  match found with
  | some job =>
    match ← awaitJob below job.number with
    | some ending =>
      markJobs fun other => other.number == job.number
      if !extended then reportEnding ending
      return ending.status
    | none => return 127
  | none =>
    if word.head? == some '%' then
      if extended then
        complain (word ++ str ": no such job")
        return 127
      else fail (str "No such job: " ++ word)
    else if (Chars.toNat? word).isNone then
      if extended then
        complain ('\x60' :: word ++ str "': not a pid or valid job spec")
        return 1
      else fail (str "Illegal number: " ++ word)
    else
      if extended then complain (str "pid " ++ word ++ str " is not a child of this shell")
      return 127

def waitCommand (below : Level) (words : List Chars) : Sh Nat := do
  let s ← session
  if s.extended && words.head? == some (str "-n") then
    match (← get).jobs with
    | [] => return 127
    | job :: _ =>
      let status ← awaitNamed below (Chars.ofNat job.number)
      forgetJobs fun other => other.number == job.number
      return status
  else if words.isEmpty then
    awaitAll below
    return 0
  else
    let mut status := 0
    for word in words do
      status ← awaitNamed below word
    return status

def stateText (ended : Option Ending) : Chars :=
  match ended with
  | some (.signaled signal) => signalText signal
  | some (.exited 0) => str "Done"
  | some (.exited n) => str "Done(" ++ Chars.ofNat n ++ [')']
  | _ => str "Running"

/-- The command `jobs`; a job that has ended is forgotten when it has been shown. -/
def jobsCommand (below : Level) (words : List Chars) : Sh Nat := do
  let (letters, names) := match words with
    | ('-' :: letters) :: names => (letters, names)
    | names => ([], names)
  let now := (← get).machine.micros
  advanceJobs below (now - 1)
  let ended (job : Job) : Option Ending :=
    (job.ended.filter fun (_, time) => job.waited || time < now).map Prod.fst
  let all := (← get).jobs
  let mut chosen := if names.isEmpty then all.reverse else []
  for name in names do
    match ← jobOf? name with
    | some job => chosen := chosen ++ [job]
    | none => fail (str "No such job: " ++ name)
  let shown (job : Job) : Chars :=
    if letters.contains 'p' then Chars.ofNat job.number ++ ['\n']
    else
      let place := '[' :: Chars.ofNat job.place ++ str "]   "
      let newer := (all.filter fun other => job.number < other.number &&
        !(names.isEmpty && (ended other).isSome)).length
      let mark := if newer = 0 then '+' else if newer = 1 then '-' else ' '
      let number := if letters.contains 'l' then Chars.ofNat job.number ++ [' '] else []
      let line := place.set (place.length - 2) mark ++ number ++ stateText (ended job)
      line ++ List.replicate (max 1 (33 - line.length)) ' ' ++ ['\n']
  let status ← say (chosen.flatMap shown)
  forgetJobs fun job => (ended job).isSome && chosen.any (·.number == job.number)
  return status

def killUsage : Sh Nat := do
  if ← isExtended then
    showUsage
    return 2
  else
    fail (str "Usage: kill [-s sigspec | -signum | -sigspec] [pid | job]... or\n" ++
      str "kill -l [exitstatus]")

/-- The signals that do nothing to a process that does not ask for them. -/
def harmlessSignals : List Nat := [17, 18, 23, 28]

def sendTo (below : Level) (signal : Nat) (word : Chars) : Sh Nat := do
  let s ← session
  let gone : Sh Nat := do
    complain (if s.extended then '(' :: word ++ str ") - No such process"
      else str "No such process\n")
    return 1
  match ← jobOf? word with
  | some job =>
    if job.waiting.isNone || (!s.extended && word.head? == some '%') then gone
    else
      if signal != 0 && !harmlessSignals.contains signal then stopJob below job signal
      return 0
  | none =>
    match Chars.toNat? word with
    | some n =>
      if n = s.number || n = s.mainNumber || n = s.parent then
        if signal != 0 then lift () (Machine.sendSignal n signal)
        return 0
      else gone
    | none =>
      if word.head? == some '%' then
        if s.extended then refuse 1 (word ++ str ": no such job")
        else fail (str "No such job: " ++ word)
      else if s.extended then
        complain (word ++ str ": arguments must be process or job IDs")
        return 1
      else fail (str "Illegal number: " ++ word)

def sendAll (below : Level) (signal : Nat) : List Chars → (status : Nat) → Sh Nat
  | [], status => return status
  | word :: rest, status => do
    let one ← sendTo below signal word
    sendAll below signal rest (if one = 0 then status else one)

def sendNamed (below : Level) (name : Chars) (words : List Chars) : Sh Nat := do
  let extended ← isExtended
  match signalOf? extended name with
  | some signal => if words.isEmpty then killUsage else sendAll below signal words 0
  | none =>
    if extended then
      complain (name ++ str ": invalid signal specification")
      return 1
    else fail (str "invalid signal number or name: " ++ name)

def killCommand (below : Level) (words : List Chars) : Sh Nat := do
  let extended ← isExtended
  match words with
  | [] => killUsage
  | first :: rest =>
    if first == str "--" then
      if rest.isEmpty then killUsage else sendAll below 15 rest 0
    else if first == str "-l" || (extended && first == str "-L") then listSignals rest
    else if first == str "-s" || (extended && first == str "-n") then
      match rest with
      | [] =>
        if extended then
          complain (first ++ str ": option requires an argument")
          return 1
        else fail (str "No arg for -s option")
      | name :: rest => sendNamed below name rest
    else if first.head? == some '-' && 1 < first.length then
      let name := first.drop 1
      match signalOf? extended name with
      | some _ => sendNamed below name rest
      | none =>
        if extended then
          complain (name ++ str ": invalid signal specification")
          return 1
        else illegalOption (first.getD 1 ' ')
    else sendAll below 15 words 0

end ProductLine.Shell.Sh
