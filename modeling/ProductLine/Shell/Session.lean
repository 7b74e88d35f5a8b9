/- # Sessions — what a shell remembers

A session holds the variables, functions, options and traps of a shell, and
which streams it has.  A subshell is a session that begins as a copy.  The
steps of a shell act on its session, on the machine, and on the commands
that it has put into the background.
-/
import ProductLine.Shell.Arithmetic
import ProductLine.Shell.Calendar.Day
import ProductLine.Shell.Chance
import ProductLine.Shell.Condition
import ProductLine.Shell.Items
import ProductLine.Shell.Launch
import ProductLine.Shell.Reader.Command

namespace ProductLine.Shell

/-- A variable: its value, or its items if it is an array of the extended dialect.  Its letters may
be all large or all small, and the value of a `reference` is the name of another variable. -/
structure Variable where
  value : Option Chars := none
  items : Option Items := none
  exported : Bool := false
  readOnly : Bool := false
  integer : Bool := false
  upper : Option Bool := none
  reference : Bool := false

def Variable.keyed (v : Variable) : Bool := v.items.any Items.keyed

abbrev Options := List String

/-- What a shell seldom changes.  `number` is the process that it runs in and `mainNumber` that of
the shell which it is a subshell of; `switches` are the further options of the extended dialect that
are on.  `callers` are the functions that are at work, the latest first, and `subshells` counts how
often the shell is a copy of a copy.  `source` is the file from which commands are read besides the main ones, and `fromWords`
says that those were an argument; `depth` counts the words of commands that the present one stands
in, and `offset` the lines by which its lines are behind.  A shell that `isChild` began as a copy of another one.  `here` is the path by which it came to
its directory, and `stack` holds those of directories to come back to.  `dice` are those that were
given a seed, and `secondsAhead` is what is added to the seconds that have passed. -/
structure Setting where
  extended : Bool := false
  number : Nat := 4711
  mainNumber : Nat := 4711
  parent : Nat := 4710
  name : Chars
  arguments : List Chars := []
  functions : List (Chars × Command) := []
  locals : List (List (Chars × Option Variable)) := []
  options : Options := []
  switches : Options := []
  traps : List (String × Chars) := []
  aliases : List (Chars × Chars) := []
  lastBackground : Option Nat := none
  directory : Location
  here : Chars := []
  stack : List Chars := []
  calls : Nat := 0
  callers : List Chars := []
  subshells : Nat := 0
  sourced : Nat := 0
  source : Chars := []
  fromWords : Bool := false
  depth : Nat := 0
  offset : Nat := 0
  isChild : Bool := false
  documents : Documents := []
  optionIndex : Nat := 1
  optionOffset : Nat := 0
  statuses : List Nat := []
  trapStatus : Option Nat := none
  mask : Nat := 18
  dice : Option Dice := none
  secondsAhead : Int := 0

/-- What a shell remembers.  `captured` is the status of the last command whose output was used in
the present command, `builtin` the name of the builtin command that is at work, and `lastWord` the
last word of the command before. -/
structure Session extends Setting where
  bindings : List (Chars × Variable) := []
  status : Nat := 0
  captured : Option Nat := none
  streams : List (Nat × Nat)
  line : Nat := 1
  loops : Nat := 0
  builtin : Chars := []
  lastWord : Chars := []

/-- A command in the background: it waits to be run, or has ended at a time.  Its place is the
number by which it is known as a job; when it was `waited` for, another process may take the
place. -/
structure Job where
  number : Nat
  place : Nat := 1
  waited : Bool := false
  startedAt : Nat
  waiting : Option (Session × Command)
  ended : Option (Ending × Nat) := none

/-- A shell at work. -/
structure State where
  session : Session
  machine : Machine
  jobs : List Job := []

/-- Why the shell does not go on with the next command.  A `fault` has been reported, and ends the
shell unless it arose in a command that survives it; after one that makes the shell give up all
that it is doing, the outermost text is `givenUp` up to its next line. -/
inductive Stop where
  | broken (levels : Nat)
  | continued (levels : Nat)
  | returned
  | exited
  | fault
  | givenUp
  | killed (signal : Nat)
  | endless (stalled : Bool)
deriving DecidableEq

abbrev Sh := ExceptT Stop (StateM State)

/-- Where a command stands: its failure is looked at, and does not end the shell; it is the last
one of its process, which a program may take over. -/
structure Standing where
  tested : Bool := false
  last : Bool := false

/-- What a shell calls for commands inside of commands, and to run a program as a process. -/
structure Level where
  run : Standing → Command → Sh Unit
  start : Program → Process → Act Unit

namespace Sh

@[inline] def session : Sh Session := do
  return (← get).session

def blank : Session := { name := [], directory := [], streams := [] }

/-- Changes the session.  It is taken out first, so that nothing else has it while it changes. -/
@[inline] def modifySession (f : Session → Session) : Sh Unit :=
  modify fun s =>
    let session := s.session
    let s := { s with session := blank }
    { s with session := f session }

@[inline] def reach (line : Nat) : Sh Unit :=
  modifySession fun s => { s with line := line + s.offset }

@[inline] def setStatus (status : Nat) : Sh Unit :=
  modifySession fun s => { s with status := status }

/-- Takes the machine out, so that nothing but what is done next has it. -/
@[inline] def takeMachine : Sh Machine :=
  modifyGet fun s => (s.machine, { s with machine := .idle })

@[inline] def putMachine (machine : Machine) : Sh Unit :=
  modify fun s => { s with machine := machine }

/-- Lets the machine have no more streams and pipes than that. -/
def shrinkMachine (counts : Nat × Nat) : Sh Unit := do
  putMachine ((← takeMachine).shrunk counts)

/-- An action on the machine.  If it ends with a code, that is the end of a builtin command, and
the code its status. -/
def act {α : Type} (action : Act α) : Sh (Except Nat α) := do
  let (result, machine) := action.run.run (← takeMachine)
  putMachine machine
  match result with
  | .ok value => return .ok value
  | .error (.exited code) => return .error code
  | .error (.signaled signal) => throw (.killed signal)
  | .error (.endless stalled) => throw (.endless stalled)

/-- An action on the machine that has no code of its own. -/
def lift {α : Type} (default : α) (action : Act α) : Sh α := do
  match ← act action with
  | .ok value => return value
  | .error _ => return default

@[inline] def spend (count : Nat) : Sh Unit := do
  let machine ← takeMachine
  if machine.steps < count then
    putMachine { machine with steps := 0 }
    throw (.endless true)
  else putMachine { machine with steps := machine.steps - count }

/-- An action on the machine that has no code of its own, after which there are no more streams and
pipes than `counts`. -/
def liftWithin {α : Type} (default : α) (action : Act α) (counts : Nat × Nat) : Sh α := do
  let result ← lift default action
  shrinkMachine counts
  return result

@[inline] def hasOption (name : String) : Sh Bool := do
  return (← session).options.contains name

/-- The further option of the extended dialect is on. -/
@[inline] def hasSwitch (name : String) : Sh Bool := do
  return (← session).switches.contains name

@[inline] def isExtended : Sh Bool := do
  return (← session).extended

/-! ## The shell as a process -/

end Sh

namespace Session

def environment (s : Session) : List (Chars × Chars) :=
  s.bindings.filterMap fun (name, v) =>
    if v.exported then v.value.map fun value => (name, value) else none

/-- The shell as a process that runs the given words. -/
def process (s : Session) (words : List Chars) : Process :=
  { number := s.number, parent := s.parent, words := words, environment := s.environment
    streams := s.streams, directory := s.directory }

/-- The name under which the extended dialect complains: that of the file that is read. -/
def shownName (s : Session) : Chars := orElse s.source s.name

def complaintFront (s : Session) (line : Nat) : Chars :=
  if s.extended then s.shownName ++ str ": line " ++ Chars.ofNat line ++ str ": "
  else
    let front := s.name ++ str ": " ++ Chars.ofNat line ++ str ": "
    if s.builtin.isEmpty then front else front ++ s.builtin ++ str ": "

/-- The name of a variable that a name stands for by way of references.  `fuel` bounds them. -/
def referred (s : Session) : (fuel : Nat) → Chars → Chars
  | 0, name => name
  | fuel + 1, name =>
    match s.bindings.lookup name with
    | some { reference := true, value := some target, .. } => s.referred fuel target
    | _ => name

/-- How many references may follow one another. -/
def maxReferences : Nat := 8

def setting? (s : Session) (name : Chars) : Option Variable :=
  match s.bindings.lookup name with
  | some { reference := true, .. } => s.bindings.lookup (s.referred maxReferences name)
  | v => v

/-- The value of a variable; that of an array is the value of its first item. -/
def value? (s : Session) (name : Chars) : Option Chars :=
  (s.setting? name).bind fun v =>
    match v.items with
    | some items => items.get? ['0']
    | none => v.value

/-- Puts a variable in the place of the one with just this name, or behind all others. -/
def bind (s : Session) (name : Chars) (v : Variable) : Session :=
  if s.bindings.any (·.1 == name) then
    { s with bindings := s.bindings.map fun entry => if entry.1 == name then (name, v) else entry }
  else { s with bindings := s.bindings ++ [(name, v)] }

/-- Puts a variable in the place of the one that a name stands for, or behind all others. -/
def setVariable (s : Session) (name : Chars) (v : Variable) : Session :=
  if v.reference then s.bind name v else s.bind (s.referred maxReferences name) v

def dropVariable (s : Session) (name : Chars) : Session :=
  { s with bindings := s.bindings.filter (·.1 ≠ name) }

def separators (s : Session) : Chars :=
  (s.value? (str "IFS")).getD (str " \t\n")

def joiner (s : Session) : Chars :=
  match s.value? (str "IFS") with
  | none => [' ']
  | some ifs => ifs.take 1

end Session

namespace Sh

/-- Writes to a stream of the shell; a fault is given back. -/
def write (stream : Nat) (text : Chars) : Sh (Except FileFault Unit) := do
  let p := (← session).process []
  lift (.ok ()) (p.write stream text)

def writeError (text : Chars) : Sh Unit := do
  let _ ← write 2 text

def warn (text : Chars) : Sh Unit := do
  let s ← session
  writeError (s.complaintFront s.line ++ text ++ ['\n'])

/-- Writes a complaint of the builtin command that is at work. -/
def complain (text : Chars) : Sh Unit := do
  let s ← session
  warn (if s.extended then s.builtin ++ str ": " ++ text else text)

def fail {α : Type} (text : Chars) : Sh α := do
  warn text
  setStatus (if ← isExtended then 1 else 2)
  throw .fault

def exit {α : Type} (status : Nat) : Sh α := do
  setStatus status
  throw .exited

/-! ## Variables -/

/-- The commands that complaints about arithmetic name in the extended dialect. -/
def namedInArithmetic : List String :=
  ["((", "[[", "let", "declare", "typeset", "local", "readonly", "export", "read", "printf"]

/-- Ends with a complaint about arithmetic, which in the extended dialect names the command that is at
work. -/
def failInArithmetic {α : Type} (text : Chars) : Sh α := do
  let s ← session
  let isNamed := s.extended && namedInArithmetic.contains (String.ofList s.builtin)
  fail (if isNamed then s.builtin ++ str ": " ++ text else text)

/-- A value without which the shell gives up all that it is doing. -/
def needed {α : Type} (body : Sh α) : Sh α := do
  try body
  catch stop => throw (if stop == .fault && (← isExtended) then .givenUp else stop)

def asKept (v : Variable) (value : Chars) : Sh Chars := do
  let s ← session
  let value := match v.upper with
    | none => value
    | some isUpper => value.map (if isUpper then Char.toUpper else Char.toLower)
  if v.integer then
    match (Arithmetic.evaluate true false s.value? (fun _ => false) value).1 with
    | .ok n => return Chars.ofInt n
    | .error (.unset name) => needed (fail (name ++ str ": unbound variable"))
    | .error (.wording text) => needed (failInArithmetic text)
  else return value

/-- The complaint about a variable that may not change. -/
def refuseReadOnly {α : Type} (name : Chars) : Sh α := do
  if ← isExtended then
    warn (name ++ str ": readonly variable")
    setStatus 1
    throw .fault
  else fail (name ++ str ": is read only")

def itemSteps : Nat := 10

/-- Gives a variable that the extended dialect keeps up by itself a value, if that has an effect. -/
def assignOwn (name value : Chars) : Sh Unit := do
  if name.head? == some 'R' || name.head? == some 'S' then
    let n := (Arithmetic.evaluate true false (fun _ => none) (fun _ => false) value).1.toOption.getD 0
    if name == str "RANDOM" then
      modifySession fun s => { s with dice := some { seed := (n % 4294967296).toNat } }
    else if name == str "SECONDS" then
      let passed := (← get).machine.micros / 1000000
      modifySession fun s => { s with secondsAhead := n - passed }

def assign (name value : Chars) : Sh Unit := do
  let s ← session
  if s.extended then assignOwn name value
  let v := (s.setting? name).getD {}
  if v.readOnly then refuseReadOnly name
  else
    lift () (Machine.spendCopying value.length)
    let value ← asKept v value
    let exported := v.exported || s.options.contains "allexport"
    let v := match v.items with
      | some items => { v with items := some (items.insert ['0'] value) }
      | none => { v with value := some value, exported := exported }
    modifySession fun s => s.setVariable name v

def assignItem (name key value : Chars) : Sh Unit := do
  let s ← session
  let v := (s.setting? name).getD {}
  if v.readOnly then refuseReadOnly name
  else
    lift () do
      Machine.spendCopying value.length
      Machine.spend itemSteps
    let value ← asKept v value
    let old := v.items.getD (.ofValue false v.value)
    modifySession fun s =>
      s.setVariable name { v with items := some (old.insert key value), value := none }

def unset (name : Chars) : Sh Unit := do
  match (← session).bindings.lookup name with
  | some v =>
    if v.readOnly then refuseReadOnly name
    else modifySession fun s => s.dropVariable name
  | none => return

/-- The name and the index of an item that is written with brackets. -/
def splitItem? (name : Chars) : Option (Chars × Chars) :=
  let front := name.takeWhile (· != '[')
  if front.length < name.length && name.getLast? == some ']' then
    some (front, (name.drop (front.length + 1)).dropLast)
  else none

def optionLetters : List (String × Option Char) :=
  [("errexit", some 'e'), ("noglob", some 'f'), ("ignoreeof", some 'I'), ("interactive", some 'i'),
    ("monitor", some 'm'), ("noexec", some 'n'), ("stdin", some 's'), ("xtrace", some 'x'),
    ("verbose", some 'v'), ("vi", some 'V'), ("emacs", some 'E'), ("noclobber", some 'C'),
    ("allexport", some 'a'), ("notify", some 'b'), ("nounset", some 'u'),
    ("privileged", some 'p'), ("nolog", none), ("debug", none)]

def activeLetters (s : Session) : Chars :=
  let on := optionLetters.filterMap fun (option, letter) =>
    if s.options.contains option then letter else none
  if s.extended then
    let (small, large) := ('h' :: on).partition Char.isLower
    Chars.sort (small.map fun c => [c]) |>.flatten.append ('B' :: large ++ ['c'])
  else on.reverse

def version : List String := ["5", "2", "21", "1", "release", "x86_64-pc-linux-gnu"]

/-- The values of the arrays that the extended dialect keeps up by itself. -/
def ownItems? (s : Session) (name : Chars) : Option (List Chars) :=
  if !s.extended then none
  else
    match String.ofList name with
    | "PIPESTATUS" => some (s.statuses.map Chars.ofNat)
    | "FUNCNAME" => some s.callers
    | "BASH_VERSINFO" => some (version.map str)
    | "GROUPS" => some [['0']]
    | _ => none

/-- The options that are on in the extended dialect without being switched, by their names. -/
def standingOptions : List String := ["braceexpand", "hashall", "interactive-comments"]

/-- The value of a parameter that the extended dialect keeps up by itself. -/
def ownValue? (s : Session) (name : Chars) : Option Chars :=
  if !s.extended then none
  else
    match String.ofList name with
    | "LINENO" => some (Chars.ofNat s.line)
    | "BASHPID" => some (Chars.ofNat s.number)
    | "BASH_SUBSHELL" => some (Chars.ofNat s.subshells)
    | "PIPESTATUS" => some (Chars.ofNat (s.statuses.headD s.status))
    | "FUNCNAME" => s.callers.head?
    | "BASH_VERSINFO" => some ['5']
    | "GROUPS" => some ['0']
    | "BASHOPTS" => some ([':'].intercalate ((s.switches.mergeSort fun a b => a ≤ b).map str))
    | "SHELLOPTS" =>
      some ([':'].intercalate (((standingOptions ++ s.options).eraseDups.mergeSort fun a b => a ≤ b).map str))
    | "_" => some s.lastWord
    | _ => none

/-- The next number of the dice of the shell; without a seed, any number. -/
def throwDice : Sh Nat := do
  match (← session).dice with
  | some dice =>
    let (n, dice) := dice.next
    modifySession fun s => { s with dice := some dice }
    return n
  | none => return (← lift 0 Machine.newSerial) * 7919 % 32768

/-- The value of a parameter of the extended dialect that changes by itself. -/
def changing? (name : Chars) : Sh (Option Chars) := do
  match name with
  | 'R' :: _ =>
    if name == str "RANDOM" then return some (Chars.ofNat (← throwDice)) else return none
  | 'S' :: _ =>
    let passed := (← get).machine.micros / 1000000
    if name == str "SECONDS" then
      return some (Chars.ofInt (passed + (← session).secondsAhead))
    else if name == str "SRANDOM" then
      return some (Chars.ofNat ((← lift 0 Machine.newSerial) * 2654435761 % 4294967296))
    else return none
  | 'E' :: _ =>
    let micros := (← get).machine.micros
    let now := Calendar.epoch + micros / 1000000
    if name == str "EPOCHSECONDS" then return some (Chars.ofNat now)
    else if name == str "EPOCHREALTIME" then
      let part := Chars.ofNat (micros % 1000000)
      return some (Chars.ofNat now ++ '.' :: List.replicate (6 - part.length) '0' ++ part)
    else return none
  | _ => return none

def parameter? (name : Chars) : Sh (Option Chars) := do
  let s ← session
  match name with
  | ['#'] => return some (Chars.ofNat s.arguments.length)
  | ['?'] => return some (Chars.ofNat s.status)
  | ['$'] => return some (Chars.ofNat s.mainNumber)
  | ['!'] => return s.lastBackground.map Chars.ofNat
  | ['-'] => return some (activeLetters s)
  | ['0'] => return some s.name
  | _ =>
    if name.all Char.isDigit then
      let n := Chars.digitsValue name
      return if n = 0 then some s.name else s.arguments[n - 1]?
    else if name == str "PPID" then return some (Chars.ofNat s.parent)
    else
      let own ← if s.extended then changing? name else pure none
      match own with
      | some value => return some value
      | none =>
        match s.value? name with
        | some value => return some value
        | none => return ownValue? s name

/-- The items of an array; a plain value is the only item. -/
def itemsOf (name : Chars) : Sh Items := do
  let s ← session
  match s.setting? name with
  | some { items := some items, .. } => return items
  | some { value := some value, .. } => return .ofValue false (some value)
  | _ => return .ofTexts ((ownItems? s name).getD [])

end Sh

end ProductLine.Shell
