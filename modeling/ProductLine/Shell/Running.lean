/- # Running — texts of commands, processes, jobs and pipelines

Here commands are run as processes of their own: as subshells, in the
background, one after the other in a pipeline, and with their output put into
a word.  All of it is written over a `Level`, which runs a command.

A command in the background has a clock of its own.  It is run when somebody
waits for it, or for a time by which it ends; what it does is undone if it
does not end by then.
-/
import ProductLine.Shell.Layout
import ProductLine.Shell.Redirect

namespace ProductLine.Shell

/-! ## Faults of a script -/

def ReadFaultKind.message : ReadFaultKind → Chars
  | .unexpected kind _ expected => str kind ++ str " unexpected" ++ behind expected
  | .endOfText expected => str "end of file unexpected" ++ behind expected
  | .unterminated mark =>
    if mark == backquote then str "EOF in backquote substitution"
    else str "Unterminated quoted string"
  | .unended what => str "Missing " ++ str what
  | .unclosed => str "end of file unexpected" ++ behind (some "\")\"")
  | .condition _ near => near ++ str " unexpected"
  | .wording text => str text
where
  /-- What was expected, in parentheses. -/
  behind (expected : Option String) : Chars :=
    match expected with
    | some kind => str " (expecting " ++ str kind ++ str ")"
    | none => []

/-- A fault in the words of the extended dialect, in one or more lines; the flag says that the line
of the script is shown after them. -/
def ReadFaultKind.extendedMessages : ReadFaultKind → List Chars × Bool
  | .unexpected _ spelling _ =>
    ([str "syntax error near unexpected token \x60" ++ spelling ++ ['\'']], true)
  | .endOfText _ => ([str "syntax error: unexpected end of file"], false)
  | .unterminated mark => ([lookingFor mark], false)
  | .unended what => ([lookingFor (what.toList.getD 1 ' ')], false)
  | .unclosed => ([lookingFor ')'], false)
  | .condition complaint near =>
    (complaint.toList ++ [str "syntax error near \x60" ++ near ++ ['\'']], true)
  | .wording text => ([str text], false)
where
  /-- The end of the text came before a mark. -/
  lookingFor (mark : Char) : Chars :=
    str "unexpected EOF while looking for matching \x60" ++ [mark, '\'']

namespace Sh

/-- Reports a fault in a text of commands that begins in the line `base`; `origin` says where the text
is from. -/
def reportFault (origin text : Chars) (base : Nat) (fault : ReadFault) : Sh Unit := do
  let s ← session
  if s.extended then
    let lines := Chars.lines text
    let line := match fault.kind with
      | .endOfText _ | .unclosed => base + lines.length
      | _ => fault.line
    let front := s.shownName ++ str ": " ++ origin ++ str "line " ++ Chars.ofNat line ++ str ": "
    let (messages, showsLine) := fault.kind.extendedMessages
    for message in messages do writeError (front ++ message ++ ['\n'])
    if showsLine then
      writeError (front ++ '\x60' :: lines.getD (line - base) [] ++ str "'\n")
  else
    modifySession fun s => { s with line := fault.line }
    warn (str "Syntax error: " ++ fault.kind.message)

/-- Runs what is left line by line of a text that begins in the line `base`.  In the extended dialect a
stop that the text survives ends only the line that it is in, except in a copy of the shell.  `fuel`
bounds the lines. -/
def runLines (below : Level) (standing : Standing) (origin text : Chars) (base : Nat)
    (survives : Stop → Bool) : (fuel : Nat) → Reader → Sh Unit
  | 0, _ => throw (.endless true)
  | fuel + 1, reader => do
    if reader.rest.isEmpty then return
    else
      let s ← session
      let hasAliases := !s.extended || s.switches.contains "expand_aliases"
      let aliases := if hasAliases then s.aliases else []
      let groups := s.switches.contains "extglob"
      match Read.nextLine.run { reader with aliases := aliases, groups := groups } with
      | .error fault =>
        reportFault origin text base fault
        setStatus 2
        throw .fault
      | .ok (command, after) =>
        modifySession fun s => { s with documents := after.documents ++ s.documents }
        if reader.extended then
          for d in after.unended do
            modifySession fun s => { s with line := d.ended }
            warn (str "warning: here-document at line " ++ Chars.ofNat d.asked ++
              str " delimited by end-of-file (wanted \x60" ++ d.delimiter ++ str "')")
        let isEnd := match after.pushed with
          | some .endOfText => true
          | _ => false
        let isLast := isEnd || after.rest.isEmpty
        match command with
        | some command =>
          if reader.extended then
            let last := if isEnd then after.line else after.line - 1
            modifySession fun s => { s with line := last }
          if !(← hasOption "noexec") then
            try below.run { standing with last := standing.last && isLast } command
            catch stop =>
              if !survives stop || !reader.extended || s.isChild then throw stop
        | none => pure ()
        if isLast then return
        else
          runLines below standing origin text base survives fuel
            { after with documents := [], unended := [] }

/-- Runs a text of commands that begins in the line `base`, and which in the extended dialect survives
some stops. -/
def runTextBeyond (survives : Stop → Bool) (below : Level) (standing : Standing) (base : Nat)
    (origin text : Chars) : Sh Unit := do
  let s ← session
  let next := (s.documents.foldl (fun n document => max n (document.1 + 1)) 0)
  let isOpen := s.extended && text.getLast?.any fun c => c != '\n' && c != '\\'
  let text := if isOpen then text ++ ['\n'] else text
  modifySession fun s => { s with offset := 0 }
  runLines below standing origin text base survives (text.length + 1)
    { extended := s.extended, rest := text, line := base, nextDocument := next }
  modifySession fun after => { after with offset := s.offset }

/-- Runs a text of commands inside of another one, or that of an argument. -/
def runText (below : Level) (standing : Standing) (origin text : Chars) : Sh Unit :=
  runTextBeyond (· == .fault) below standing 1 origin text

/-- Runs a text of commands whose lines the extended dialect counts on from the present one. -/
def runTextHere (below : Level) (standing : Standing) (origin text : Chars) : Sh Unit := do
  let s ← session
  runTextBeyond (· == .fault) below standing (if s.extended then s.line else 1) origin text

/-- Runs the text of commands that the shell gets by and by. -/
def runScript (below : Level) (text : Chars) : Sh Unit :=
  runTextBeyond (fun stop => stop == .fault || stop == .givenUp) below {} 1 [] text

/-! ## The end of a process -/

/-- Runs a body as a process, and says how it ends. -/
def endOf (body : Sh Unit) : Sh Ending := do
  let (result, after) := body.run.run (← get)
  set after
  match result with
  | .error (.killed signal) => return .signaled signal
  | .error (.endless stalled) => throw (.endless stalled)
  | _ => return .exited after.session.status

def runExitTrap (below : Level) (ending : Ending) : Sh Ending := do
  match ending, (← session).traps.lookup "EXIT" with
  | .exited code, some action =>
    modifySession fun s => { s with
      traps := s.traps.filter (·.1 ≠ "EXIT")
      status := code, trapStatus := some code, loops := 0, calls := 0 }
    endOf do
      runText below {} (str "trap: ") action
      setStatus code
  | ending, _ => return ending

/-- Runs a body in a session as a process of its own, which may go on for ever; after it there are
no more streams and pipes than `counts`. -/
def asProcess (below : Level) (finish : Sh Unit) (session : Session) (body : Sh Unit)
    (counts : Nat × Nat) (machine : Machine) : Ending × Machine :=
  let whole : Sh Ending := do
    let ending ← endOf body
    let ending ← runExitTrap below ending
    finish
    return ending
  let (result, after) := whole.run.run { session := session, machine := machine }
  let machine := after.machine.shrunk counts
  match result with
  | .ok ending => (ending, machine)
  | .error (.endless stalled) => (.endless stalled, machine)
  | .error _ => (.exited 2, machine)

/-- Runs a command in a session as a process of its own, which may go on for ever. -/
def runAs (below : Level) (finish : Sh Unit) (session : Session) (standing : Standing)
    (body : Command) : Sh Ending := do
  let machine ← takeMachine
  let (ending, machine) :=
    asProcess below finish session (below.run standing body) machine.counts machine
  putMachine machine
  return ending

/-! ## Commands in the background -/

/-- What would come of running a job by a time: how it ends, and the machine after it. -/
def tryJob (below : Level) (finish : Sh Unit) (job : Job) (deadline : Nat) :
    Sh (Option (Ending × Machine)) := do
  match job.waiting with
  | none => return none
  | some (session, command) =>
    let outer ← get
    let machine := { outer.machine with
      micros := job.startedAt, deadline := min deadline outer.machine.deadline }
    let (result, after) := (runAs below finish session { last := true } command).run.run
      { outer with machine := machine }
    let restored := { after.machine with deadline := outer.machine.deadline }
    match result with
    | .ok ending => return some (ending, restored)
    | .error _ => return some (.endless true, restored)

/-- Lets a job have ended, with the machine after it, on the clock of the shell. -/
def settleJob (job : Job) (ending : Ending) (machine : Machine) (time : Nat) : Sh Unit :=
  modify fun s => { s with
    machine := { machine with micros := s.machine.micros }
    jobs := s.jobs.map fun other =>
      if other.number == job.number then { job with waiting := none, ended := some (ending, time) }
      else other }

def firstToEnd (below : Level) (finish : Sh Unit) (deadline : Nat) :
    List Job → Sh (Option (Job × Ending × Machine))
  | [] => return none
  | job :: rest => do
    let others ← firstToEnd below finish deadline rest
    match ← tryJob below finish job (deadline + 1) with
    | some (.endless _, _) | none => return others
    | some (ending, machine) =>
      match others with
      | some (other, otherEnding, otherMachine) =>
        return if otherMachine.micros < machine.micros then some (other, otherEnding, otherMachine)
          else some (job, ending, machine)
      | none => return some (job, ending, machine)

/-- Runs the jobs that end by a time, in the order in which they end.  `fuel` bounds their
number. -/
def runJobsUntil (below : Level) (finish : Sh Unit) (time : Nat) : (fuel : Nat) → Sh Unit
  | 0 => return
  | fuel + 1 => do
    let waiting := (← get).jobs.filter fun job => job.waiting.isSome
    match ← firstToEnd below finish time waiting with
    | none => return
    | some (job, ending, machine) =>
      settleJob job ending machine machine.micros
      runJobsUntil below finish time fuel

/-- Makes readers of the pipes that a session writes to wait until a time. -/
def holdPipes (session : Session) (time : Nat) : Sh Unit := do
  for (_, number) in session.streams do
    match ← lift none (Machine.opening? number) with
    | some { target := .pipe n, writable := true, .. } =>
      let p ← lift {} (Machine.pipe n)
      lift () (Machine.setPipe n { p with readyAt := max p.readyAt time })
    | _ => pure ()

/-- Lets jobs that nobody waits for run to their end, while the shell itself has ended. -/
def finishJobs (below : Level) : (depth : Nat) → Sh Unit
  | 0 => return
  | depth + 1 => do
    for job in (← get).jobs do
      let deadline := (← get).machine.deadline
      match job.waiting, ← tryJob below (finishJobs below depth) job deadline with
      | some (session, _), some (ending, machine) =>
        let time := if let .endless _ := ending then deadline else machine.micros
        settleJob job ending machine time
        holdPipes session time
      | _, _ => pure ()

/-- How deep jobs of jobs may be nested. -/
def maxJobDepth : Nat := 4

/-- What a process of the shell still has to do at its end. -/
def finish (below : Level) : Sh Unit := finishJobs below maxJobDepth

def advanceJobs (below : Level) (time : Nat) : Sh Unit := do
  runJobsUntil below (finish below) time ((← get).jobs.length + 1)

def awaitJob (below : Level) (number : Nat) : Sh (Option Ending) := do
  match (← get).jobs.find? (·.number == number) with
  | none => return none
  | some _ =>
    let trial ← get
    let deadline := trial.machine.deadline
    match (trial.jobs.find? (·.number == number)).bind (·.ended) with
    | some (ending, time) =>
      lift () (Machine.passUntil time)
      return some ending
    | none =>
      match trial.jobs.find? (·.number == number) with
      | none => return none
      | some job =>
        match ← tryJob below (finish below) job deadline with
        | some (.endless stalled, _) => throw (.endless stalled)
        | some (_, machine) =>
          advanceJobs below machine.micros
          match ((← get).jobs.find? (·.number == number)).bind (·.ended) with
          | some (ending, time) =>
            lift () (Machine.passUntil time)
            return some ending
          | none => return none
        | none => return none

def markJobs (test : Job → Bool) : Sh Unit :=
  modify fun s => { s with
    jobs := s.jobs.map fun job => if test job then { job with waited := true } else job }

/-- The first place that no job needs.  `fuel` bounds the places. -/
def freePlace (jobs : List Job) : (fuel : Nat) → (place : Nat) → Nat
  | 0, place => place
  | fuel + 1, place =>
    match jobs.find? (·.place == place) with
    | some job => if job.waited && job.ended.isSome then place else freePlace jobs fuel (place + 1)
    | none => place

/-- A number and a place for a new process; the job that had the place is forgotten. -/
def newProcess : Sh (Nat × Nat) := do
  let jobs := (← get).jobs
  let place := freePlace jobs jobs.length 1
  if !(← isExtended) then
    modify fun s => { s with jobs := s.jobs.filter (·.place ≠ place) }
  return (← lift 0 Machine.newProcess, place)

/-- The jobs with those that have been waited for left out. -/
def forgetJobs (test : Job → Bool) : Sh Unit :=
  modify fun s => { s with jobs := s.jobs.filter fun job => !test job }

/-- Sends a signal to a job that has not ended: what it has done until now remains. -/
def stopJob (below : Level) (job : Job) (signal : Nat) : Sh Unit := do
  let now := (← get).machine.micros
  match ← tryJob below (finish below) job now with
  | none => return
  | some (.endless _, machine) => settleJob job (.signaled signal) machine now
  | some (ending, machine) => settleJob job ending machine (min now machine.micros)

/-! ## Processes in the foreground -/

/-- The trap of that name is kept by functions and subshells only if an option says so, which is
off. -/
def isHidden (s : Session) (trap : String) : Bool :=
  (trap == "ERR" && !s.options.contains "errtrace") ||
    ((trap == "DEBUG" || trap == "RETURN") && !s.options.contains "functrace")

/-- The trap of that name is about commands, and not about signals. -/
def concernsCommands (trap : String) : Bool := ["ERR", "DEBUG", "RETURN"].contains trap

def childSession (s : Session) (number : Nat) : Session :=
  { s with
    number := number, captured := none, trapStatus := none, isChild := true
    traps := s.traps.filter fun (name, action) =>
      action.isEmpty || (concernsCommands name && !isHidden s name) }

def deeper (s : Session) : Session := { s with subshells := s.subshells + 1 }

def signalTexts : List String :=
  ["Hangup", "Interrupt", "Quit", "Illegal instruction", "Trace/breakpoint trap", "Aborted",
    "Bus error", "Floating point exception", "Killed", "User defined signal 1",
    "Segmentation fault", "User defined signal 2", "Broken pipe", "Alarm clock", "Terminated",
    "Stack fault", "Child exited", "Continued", "Stopped (signal)", "Stopped",
    "Stopped (tty input)", "Stopped (tty output)", "Urgent I/O condition",
    "CPU time limit exceeded", "File size limit exceeded", "Virtual timer expired",
    "Profiling timer expired", "Window changed", "I/O possible", "Power failure",
    "Bad system call"]

def signalText (signal : Nat) : Chars :=
  match if signal = 0 then none else signalTexts[signal - 1]? with
  | some text => str text
  | none => str "Signal " ++ Chars.ofNat signal

def terminateSignal : Nat := 15

/-- Says that a process was ended by a signal, unless it is one of those that users send. -/
def reportEnding (ending : Ending) : Sh Unit := do
  match ending with
  | .signaled signal =>
    if signal != 2 && signal != brokenPipeSignal then
      let s ← session
      if s.extended && signal != terminateSignal then
        writeError (s.complaintFront s.line ++ Chars.padLeft 5 (Chars.ofNat s.number) ++ [' '] ++
          Chars.padRight 23 (signalText signal) ++ ['\n'])
      else writeError (signalText signal ++ ['\n'])
  | _ => return

/-- Runs a command as a process of its own and waits for it. -/
def runChild (below : Level) (standing : Standing) (adjust : Session → Session) (body : Command) :
    Sh Ending := do
  spend Machine.forkSteps
  let (number, _) ← newProcess
  let session := adjust (childSession (← session) number)
  match ← runAs below (finish below) session standing body with
  | .endless stalled => throw (.endless stalled)
  | ending =>
    reportEnding ending
    return ending

def startJob (body : Command) : Sh Unit := do
  let (number, place) ← newProcess
  let none ← lift 0 (Machine.addOpening { target := .nowhere, readable := true, writable := false })
  let child := deeper (childSession (← session) number)
  let child := { child with streams := (0, none) :: child.streams.filter (·.1 ≠ 0) }
  modify fun s => { s with
    jobs := s.jobs ++
      [{ number := number, place := place, startedAt := s.machine.micros
         waiting := some (child, body) }] }
  modifySession fun s => { s with lastBackground := some number, status := 0 }

/-! ## The output of a command -/

def withStream (n opening : Nat) (s : Session) : Session :=
  { s with streams := (n, opening) :: s.streams.filter (·.1 ≠ n) }

/-- The output of a command whose lines are `offset` lines behind; after it there are no more streams
and pipes than `counts`. -/
def outputWithin (below : Level) (offset : Nat) (body : Command) (counts : Nat × Nat) :
    Sh (Chars × Nat) := do
  let pipe ← lift 0 (Machine.addPipe {})
  let opening ← lift 0
    (Machine.addOpening { target := .pipe pipe, readable := false, writable := true })
  let quiet (s : Session) : Session :=
    if s.extended && !s.switches.contains "inherit_errexit" then
      { s with options := s.options.filter (· ≠ "errexit") }
    else s
  let inside (s : Session) : Session :=
    withStream 1 opening
      { quiet (deeper s) with depth := if s.extended then s.depth + 1 else 0, offset := offset }
  let ending ← runChild below { last := true } inside body
  let text ← lift [] do
    Machine.passUntil (← Machine.pipe pipe).readyAt
    Machine.drain pipe
  shrinkMachine counts
  return (text, ending.status)

def outputOf (below : Level) (offset : Nat) (body : Command) : Sh (Chars × Nat) := do
  outputWithin below offset body (← get).machine.counts

/-- The file that a command without words reads, in the extended dialect. -/
def onlyReads? : Command → Option Word
  | .simple _ [] [] [.file 0 .read target] => some target
  | _ => none

/-- A command whose output is used, and how many lines its lines are behind those that they count as
in the extended dialect: they go on from the present one, and those of a command that is not copied
are the ones that it has when it is written anew. -/
def placed (isCopied : Bool) (body : Command) : Sh (Command × Nat) := do
  let s ← session
  if !s.extended then return (body, 0)
  else if isCopied then return (body, s.line - 1)
  else
    let height (number : Nat) : Nat :=
      feedsOf (fun _ => 0) ((s.documents.lookup number).getD [])
    return ((body.laidOut height { line := s.line }).1, 0)

def capturing (below : Level) : Capturing where
  output isCopied body := do
    let (text, status) ← match body with
      | none => pure ([], 0)
      | some body =>
        let (body, offset) ← placed isCopied body
        let target ← if ← isExtended then pure (onlyReads? body) else pure none
        match target.map Word.unquoted with
        | some path =>
          match ← lift (.error .notFound) (((← session).process []).readPath path) with
          | .ok text => pure (text, 0)
          | .error fault =>
            warn (openFault true .read path fault)
            pure ([], 1)
        | none => outputOf below offset body
    modifySession fun s => { s with captured := some status }
    if ← isExtended then setStatus status
    return Chars.dropFinalFeeds (text.filter (· != '\x00'))
  process reads body := do
    let text ← match body with
      | some body =>
        let (body, offset) ← placed false body
        if reads then pure (← outputOf below offset body).1 else pure []
      | none => pure []
    let opening ← lift 0 (Machine.addText text)
    let taken := (← session).streams.map Prod.fst
    let free := ((List.range 64).reverse.find? fun n => !taken.contains n).getD 63
    modifySession (withStream free opening)
    return str "/dev/fd/" ++ Chars.ofNat free

/-! ## Pipelines -/

/-- What a command may use up that writes to another one, before it is set aside. -/
structure Allowance where
  steps : Nat
  room : Nat

/-- The allowances that are tried one after the other, as long as the reader asks for more than the
writer has written. -/
def allowances : List Allowance :=
  [⟨1000000, leastRoom⟩, ⟨8000000, 1048576⟩, ⟨1000000000, 8388608⟩]

/-- Runs a command that writes to a new pipe within an allowance; how it ends, when, and what the
pipe is read from. -/
def runWriter (below : Level) (standing : Standing) (child : Session) (command : Command)
    (start : Nat) (a : Allowance) : Sh (Ending × Nat × Nat) := do
  let pipe ← lift 0 (Machine.addPipe { isLimited := true })
  let target := Target.pipe pipe
  let writing ← lift 0
    (Machine.addOpening { target := target, readable := false, writable := true })
  let reading ← lift 0
    (Machine.addOpening { target := target, readable := true, writable := false })
  let outer := (← get).machine
  let given := min outer.steps a.steps
  modify fun s => { s with machine := { s.machine with steps := given, room := a.room } }
  let ending ← runAs below (finish below) (withStream 1 writing child) standing command
  modify fun s => { s with machine := { s.machine with
    steps := outer.steps - (given - s.machine.steps), room := outer.room } }
  let now := (← get).machine.micros
  let written ← lift {} (Machine.pipe pipe)
  match ending with
  | .endless stalled =>
    lift () (Machine.setPipe pipe { written with setAside := true, readyAt := start })
    if written.held = 0 then throw (.endless stalled)
    return (.signaled brokenPipeSignal, start, reading)
  | ending =>
    lift () (Machine.setPipe pipe { written with readyAt := max now written.readyAt })
    reportEnding ending
    return (ending, now, reading)

/-- Runs something with the first allowance that is enough for it.  What was done with less is
undone, but for the steps that it took. -/
def withAllowance {α : Type} (body : Allowance → Sh α) : List Allowance → Sh α
  | [] => throw (.endless true)
  | [a] => body a
  | a :: more => do
    let before ← get
    let pipe := before.machine.pipes.size
    let (result, after) := (body a).run.run before
    let wasSetAside := (after.machine.pipes[pipe]?).any Pipe.setAside
    match result with
    | .error (.endless true) =>
      if wasSetAside && after.machine.steps != 0 then
        set { before with machine := { before.machine with steps := after.machine.steps } }
        withAllowance body more
      else
        set after
        throw (.endless true)
    | .error stop =>
      set after
      throw stop
    | .ok value =>
      set after
      return value

/-- Runs a command in the shell itself with another input. -/
def runHere (below : Level) (standing : Standing) (command : Command) (input : Option Nat) :
    Sh Unit := do
  let streams := (← session).streams
  match input with
  | some opening => modifySession (withStream 0 opening)
  | none => pure ()
  let leave : Sh Unit := modifySession fun s => { s with streams := streams }
  try
    below.run { standing with last := false } command
    leave
  catch stop =>
    leave
    throw stop

/-- Runs the commands of a pipeline, all of which start at the same time; `input` is what the first
of them reads. -/
def runStages (below : Level) (standing : Standing) (start : Nat) :
    (commands : List Command) → (input : Option Nat) → Sh (List (Ending × Nat))
  | [], _ => return []
  | command :: rest, input => do
    modify fun s => { s with machine := { s.machine with micros := start } }
    spend Machine.forkSteps
    let (number, _) ← newProcess
    let child := childSession (← session) number
    let child := if command.isSimple then child else deeper child
    let child := match input with
      | some opening => withStream 0 opening child
      | none => child
    let standing := { standing with last := true }
    if rest.isEmpty && (← hasSwitch "lastpipe") then
      runHere below standing command input
      return [(.exited (← session).status, (← get).machine.micros)]
    else if rest.isEmpty then
      match ← runAs below (finish below) child standing command with
      | .endless stalled => throw (.endless stalled)
      | ending =>
        reportEnding ending
        return [(ending, (← get).machine.micros)]
    else
      withAllowance (fun a => do
        let (ending, time, reading) ← runWriter below standing child command start a
        return (ending, time) :: (← runStages below standing start rest (some reading)))
        allowances

def runPipelineWithin (below : Level) (standing : Standing) (commands : List Command)
    (start : Nat) (counts : Nat × Nat) : Sh Unit := do
  let stages ← runStages below standing start commands none
  shrinkMachine counts
  let ended := stages.foldl (fun time stage => max time stage.2) start
  modify fun s => { s with machine := { s.machine with micros := ended } }
  let statuses := stages.map fun stage => stage.1.status
  let last := statuses.getLastD 0
  let failed := (statuses.filter (· ≠ 0)).getLastD 0
  let status := if (← hasOption "pipefail") && last = 0 then failed else last
  modifySession fun s => { s with status := status, statuses := statuses }

def runPipeline (below : Level) (standing : Standing) (commands : List Command) : Sh Unit := do
  let m := (← get).machine
  runPipelineWithin below standing commands m.micros m.counts

/-! ## Signals -/

/-- The names of the signals without `SIG`, from the first on. -/
def signalNames : List String :=
  ["HUP", "INT", "QUIT", "ILL", "TRAP", "ABRT", "BUS", "FPE", "KILL", "USR1", "SEGV", "USR2",
    "PIPE", "ALRM", "TERM", "STKFLT", "CHLD", "CONT", "STOP", "TSTP", "TTIN", "TTOU", "URG",
    "XCPU", "XFSZ", "VTALRM", "PROF", "WINCH", "IO", "PWR", "SYS"]

def signalName (signal : Nat) : String :=
  if signal = 0 then "EXIT" else signalNames.getD (signal - 1) (toString signal)

def signalOf? (extended : Bool) (text : Chars) : Option Nat :=
  match Chars.toNat? text with
  | some n => if n ≤ 64 then some n else none
  | none =>
    let name := String.ofList (if extended then text.map Char.toUpper else text)
    let name := if extended && name.startsWith "SIG" then (name.drop 3).toString else name
    if name == "EXIT" then some 0
    else if name == "IOT" then some 6
    else if name == "POLL" then some 29
    else (signalNames.findIdx? (· == name)).map (· + 1)

def runTrap (below : Level) (action : Chars) : Sh Unit := do
  let before ← session
  modifySession fun s => { s with trapStatus := some s.status }
  runTextHere below {} (str "trap: ") action
  modifySession fun s => { s with status := before.status, trapStatus := before.trapStatus }

/-- Receives the signals that the shell was sent.  `fuel` bounds their number. -/
def receiveSignals (below : Level) : (fuel : Nat) → Sh Unit
  | 0 => return
  | fuel + 1 => do
    if (← get).machine.signals.isEmpty then return
    match ← lift none (Machine.takeSignal (← session).number) with
    | none => return
    | some signal =>
      match (← session).traps.lookup (signalName signal) with
      | some action =>
        if !action.isEmpty then runTrap below action
        receiveSignals below fuel
      | none =>
        if [17, 18, 23, 28].contains signal then receiveSignals below fuel
        else if 19 ≤ signal && signal ≤ 22 then
          modify fun s => { s with machine := { s.machine with micros := s.machine.deadline } }
          throw (.endless false)
        else throw (.killed signal)

end Sh

end ProductLine.Shell
