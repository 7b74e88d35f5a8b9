/- # Running programs of `awk` — records, variables, and what is read and written

The rules of a program act on one record after the other.  An array is known
by its number in a heap, so a function can change the array that it is
given.  The output of the program is kept until another program is started
or the program ends.
-/
import ProductLine.Shell.Calendar.Format
import ProductLine.Shell.Chance
import ProductLine.Shell.Tool.Launchers
import ProductLine.Shell.Tool.Record.Read
import ProductLine.Shell.Tool.Record.Table

namespace ProductLine.Shell.Record

/-! ## The state of a program -/

/-- What a variable holds.  One that was handed to a function before it was used is `fresh`: it may
become the array of that number. -/
inductive Slot where
  | value (v : Value)
  | array (number : Nat)
  | fresh (number : Nat)

/-- Where output goes that does not go to the output of the program. -/
inductive Writer where
  | stream (opening : Nat)
  | command (text : List Chars)

/-- What is left of something that is read, and the status that closing it gives. -/
structure Source where
  rest : Chars
  status : Nat := 0

/-- A program at work.  `record` is the present one; `fields` are its fields if it has been cut, and
it is `stale` if one of them was changed since.  `count` is what was given for the number of the
fields, as long as it counts. -/
structure State where
  process : Process
  start : Program → Process → Act Unit
  script : Script
  globals : Std.HashMap Chars Slot := {}
  frames : List (List (Chars × Slot)) := []
  heap : Array Table := #[]
  record : Value := .text []
  fields : Option (Array Value) := none
  stale : Bool := false
  count : Option Value := none
  input : Option Source := none
  inputName : Chars := []
  position : Nat := 1
  opened : Bool := false
  sources : List (Chars × Source) := []
  writers : List (Chars × Writer) := []
  buffer : List Chars := []
  held : Nat := 0
  ranges : List (Nat × Bool) := []
  code : Nat := 0
  seed : Value := .number 0
  chance : Lagged := .ofSeed 1

/-- Why a statement is not followed by the next one. -/
inductive Signal where
  | next
  | nextFile
  | exited
  | stopped
  | onward
  | returned (v : Value)

abbrev Step := ExceptT Signal (StateT State Act)

def act {α : Type} (action : Act α) : Step α :=
  ExceptT.lift (StateT.lift action)

/-! ## Output -/

/-- Writes out what was kept of the output of the program. -/
def flush : Step Unit := do
  let s ← get
  set { s with buffer := [], held := 0 }
  act (s.process.print s.buffer.reverse.flatten)

/-- Writes to the errors, and ends the program. -/
def die {α : Type} (text : Chars) : Step α := do
  let p := (← get).process
  act (p.complain (p.name ++ str ": " ++ text ++ ['\n']))
  flush
  act (throw (.exited 2))

/-- How much output is kept. -/
def maxHeld : Nat := 4096

def emit (text : Chars) : Step Unit := do
  modify fun s => { s with buffer := text :: s.buffer, held := s.held + text.length }
  if maxHeld ≤ (← get).held then flush

/-- The path by which a shell is called for commands at the other end of a pipe. -/
def shellPath : Chars := str "/bin/sh"

/-- Runs a command in a shell called by a word; it may get an input of its own. -/
def runCommand (shell command : Chars) (input : Option Nat) : Step Ending := do
  flush
  let s ← get
  let own := input.elim s.process (s.process.withStream 0)
  act (own.runCommand s.start shell command)

/-- The status of a command that has ended, as the program gets it. -/
def statusOf : Ending → Nat
  | .signaled signal => 256 + signal
  | ending => ending.status

def openOutput (path : Chars) (appends : Bool) : Step Nat := do
  let p := (← get).process
  match ← act (p.openPath path (if appends then .append else .write)) with
  | .ok opening => return opening
  | .error fault =>
    die (str "cannot open \"" ++ path ++ str "\" for output (" ++ Process.reason fault ++ [')'])

def setWriter (name : Chars) (w : Writer) : Step Unit :=
  modify fun s => { s with writers := (name, w) :: s.writers.filter (·.1 ≠ name) }

def writeTo (sink : Sink) (name text : Chars) : Step Unit := do
  if sink ≠ .command && (name == str "/dev/stdout" || name == ['-']) then emit text
  else if sink ≠ .command && name == str "/dev/stderr" then
    act ((← get).process.complain text)
  else
    match (← get).writers.lookup name with
    | some (.stream opening) => act do let _ ← Machine.write opening text
    | some (.command texts) => setWriter name (.command (text :: texts))
    | none =>
      match sink with
      | .command =>
        flush
        setWriter name (.command [text])
      | sink =>
        let opening ← openOutput name (sink == .appended)
        setWriter name (.stream opening)
        act do let _ ← Machine.write opening text

/-- Closes what was written to; the status of a command that has been waited for. -/
def closeWriter (name : Chars) (w : Writer) : Step Nat := do
  modify fun s => { s with writers := s.writers.filter (·.1 ≠ name) }
  match w with
  | .stream _ => return 0
  | .command texts =>
    let s ← get
    set { s with buffer := [], held := 0 }
    let input ← act (Machine.addText texts.reverse.flatten)
    let ending ← runCommand shellPath name (some input)
    modify fun after => { after with buffer := s.buffer, held := s.held }
    return statusOf ending

def closeAll : List (Chars × Writer) → Step Unit
  | [] => return
  | (name, w) :: rest => do
    let _ ← closeWriter name w
    closeAll rest

/-! ## Variables -/

def slot? (name : Chars) : Step (Option Slot) := do
  let s ← get
  match s.frames with
  | frame :: _ =>
    match frame.lookup name with
    | some slot => return some slot
    | none => return s.globals[name]?
  | [] => return s.globals[name]?

def setSlot (name : Chars) (slot : Slot) : Step Unit :=
  modify fun s =>
    match s.frames with
    | frame :: rest =>
      if frame.any (·.1 == name) then
        let frame := frame.map fun entry => if entry.1 == name then (name, slot) else entry
        { s with frames := frame :: rest }
      else { s with globals := s.globals.insert name slot }
    | [] => { s with globals := s.globals.insert name slot }

def globalValue (name : Chars) : Step Value := do
  match (← get).globals[name]? with
  | some (.value v) => return v
  | _ => return .unset

def globalText (name : Chars) : Step Chars := do
  return (← globalValue name).toText (str "%.6g")

/-- Ends the program with a complaint that says which record it is at. -/
def dieRunning {α : Type} (text : Chars) : Step α := do
  die (str "run time error: " ++ text ++ str "\n\tFILENAME=\"" ++ (← globalText (str "FILENAME")) ++
    str "\" FNR=" ++ (← globalText (str "FNR")) ++ str " NR=" ++ (← globalText (str "NR")))

def setGlobal (name : Chars) (v : Value) : Step Unit :=
  modify fun s => { s with globals := s.globals.insert name (.value v) }

/-- A value as a text, as far as the program has its say. -/
def textOf (v : Value) : Step Chars := do
  match v with
  | .number x => return numberText (← globalText (str "CONVFMT")) x
  | v => return v.toText []

def newTable : Step Nat :=
  modifyGet fun s => (s.heap.size, { s with heap := s.heap.push {} })

def arrayNumber (name : Chars) : Step Nat := do
  match ← slot? name with
  | some (.array n) | some (.fresh n) => return n
  | some (.value .unset) | none =>
    let n ← newTable
    setSlot name (.array n)
    return n
  | some (.value _) => die (str "line 1: illegal reference to variable " ++ name)

/-- Looks into an array, which may change its order. -/
def withTable {α : Type} (n : Nat) (f : Table → α × Table) : Step α :=
  modifyGet fun s =>
    let heap := s.heap
    let s := { s with heap := #[] }
    let t := (heap[n]?).getD {}
    let heap := heap.setIfInBounds n {}
    let (result, t) := f t
    (result, { s with heap := heap.setIfInBounds n t })

def changeTable (n : Nat) (f : Table → Table) : Step Unit :=
  withTable n fun t => ((), f t)

/-! ## The record -/

def fields : Step (Array Value) := do
  let s ← get
  match s.fields with
  | some fields => return fields
  | none =>
    let text ← textOf s.record
    let separator ← globalText (str "FS")
    let fields := ((fieldsOf separator text).map Value.input).toArray
    modify fun s => { s with fields := some fields }
    return fields

def record : Step Value := do
  if (← get).stale then
    let texts ← (← fields).toList.mapM textOf
    let v := Value.input ((← globalText (str "OFS")).intercalate texts)
    modify fun s => { s with record := v, stale := false }
    return v
  else return (← get).record

def setRecord (v : Value) : Step Unit := do
  modify fun s => { s with record := v, fields := none, stale := false, count := none }

def field (n : Nat) : Step Value := do
  if n = 0 then record else return ((← fields)[n - 1]?).getD (.text [])

def setField (n : Nat) (v : Value) : Step Unit := do
  if n = 0 then setRecord v
  else
    let list ← fields
    let isNew := list.size < n
    let list := list ++ Array.replicate (n - list.size) (.text [])
    modify fun s => { s with
      fields := some (list.setIfInBounds (n - 1) v)
      stale := true
      count := if isNew then none else s.count }

def setFieldCount (v : Value) : Step Unit := do
  let n := (wholePart? v.toNumber).getD 0
  if n < 0 then dieRunning (str "negative value assigned to NF")
  let list ← fields
  let list := list.take n.toNat ++ Array.replicate (n.toNat - list.size) (.text [])
  modify fun s => { s with fields := some list, stale := true, count := some v }

def fieldCount : Step Value := do
  let size := (← fields).size
  return (← get).count.getD (.ofNat size)

/-- Empties the record if it has not been cut. -/
def dropUncut : Step Unit :=
  modify fun s =>
    if s.fields.isNone then { s with record := .text [], fields := some #[] } else s

def valueOf (name : Chars) : Step Value := do
  if name == str "NF" then fieldCount
  else
    match ← slot? name with
    | some (.value v) => return v
    | some (.array _) => die (str "line 1: illegal reference to array " ++ name)
    | _ => return .unset

/-- The names whose values say how records are cut and numbers are written. -/
def cuttingNames : List Chars := ["FS", "RS", "NF", "CONVFMT", "OFMT"].map str

/-- Cuts the record if a name says how records are cut: the present one is cut as was said before. -/
def cutBefore (name : Chars) : Step Unit := do
  if cuttingNames.contains name then let _ ← fields

/-- Sets a variable.  A separator of more than one character has to be a regular expression. -/
def setVariable (name : Chars) (v : Value) : Step Unit := do
  cutBefore name
  if separatorNames.contains name then
    let text ← textOf v
    if 1 < text.length then
      match pattern text with
      | .ok _ => pure ()
      | .error fault => dieRunning fault
  if name == str "NF" then setFieldCount v
  else
    match ← slot? name with
    | some (.array _) => die (str "line 1: illegal reference to array " ++ name)
    | _ => setSlot name (.value v)

/-! ## Input -/

def dropFeeds (text : Chars) : Chars := text.dropWhile (· == '\n')

/-- The first record of a text up to an empty line, and what follows.  `fuel` bounds the
characters. -/
def paragraph : (fuel : Nat) → Chars → Chars × Chars
  | 0, text => (text, [])
  | _, [] => ([], [])
  | _, '\n' :: '\n' :: rest => ([], dropFeeds rest)
  | _, ['\n'] => ([], [])
  | fuel + 1, c :: rest =>
    let (front, after) := paragraph fuel rest
    (c :: front, after)

/-- The first record of a text, and what follows; nothing if there is none.  The flag says that the
record may go on when there is more text. -/
def cutRecord (separator text : Chars) : Option (Chars × Chars × Bool) :=
  match separator with
  | [] =>
    let text := dropFeeds text
    if text.isEmpty then none
    else
      let (front, rest) := paragraph (text.length + 1) text
      some (front, rest, rest.isEmpty)
  | [mark] =>
    if text.isEmpty then none
    else
      let front := text.takeWhile (· != mark)
      let behind := text.drop front.length
      some (front, behind.drop 1, behind.isEmpty)
  | _ =>
    if text.isEmpty then none
    else
      match find? (patternOf separator) text 0 with
      | some (i, j) => if i < j then some (text.take i, text.drop j, false)
          else some (text, [], true)
      | none => some (text, [], true)

/-- A text that may be an assignment, as a name and a value with its escapes replaced. -/
def assignment? (word : Chars) : Option (Chars × Chars) :=
  let name := word.takeWhile (· != '=')
  if Chars.isName name && name.length < word.length then
    some (name, (textEscapes.apply (word.drop (name.length + 1))).1)
  else none

/-- Opens the next input that the arguments name; says whether there is one.  `fuel` bounds the
arguments. -/
def openNext : (fuel : Nat) → Step Bool
  | 0 => return false
  | fuel + 1 => do
    let s ← get
    let count := ((wholePart? (← globalValue (str "ARGC")).toNumber).getD 0).toNat
    let standard : Step Bool := do
      match ← act (s.process.readInput ['-']) with
      | .ok text =>
        setGlobal (str "FILENAME") (.text ['-'])
        modify fun s => { s with
          input := some { rest := text }, inputName := ['-'], opened := true }
        return true
      | .error _ => return false
    if count ≤ s.position then
      if s.opened then return false else standard
    else
      set { s with position := s.position + 1 }
      let arguments ← arrayNumber (str "ARGV")
      let word ← textOf (← withTable arguments fun t =>
        match t.contains (.number s.position) with
        | (true, t) => t.get (.number s.position)
        | (false, t) => (.unset, t))
      if word.isEmpty then openNext fuel
      else
        match assignment? word with
        | some (name, value) =>
          setVariable name (.input value)
          openNext fuel
        | none =>
          setGlobal (str "FILENAME") (.text word)
          setGlobal (str "FNR") (.number 0)
          if word == ['-'] then standard
          else
            match ← act (s.process.node word) with
            | .ok (_, .directory) =>
              die (str "read error (Is a directory)")
            | _ =>
              match ← act (s.process.readPath word) with
              | .ok text =>
                modify fun s => { s with
                  input := some { rest := text }, inputName := word, opened := true }
                return true
              | .error fault =>
                die (str "cannot open \"" ++ word ++ str "\" (" ++ Process.reason fault ++ [')'])

def nextRecord : (fuel : Nat) → Step (Option Chars)
  | 0 => return none
  | fuel + 1 => do
    let s ← get
    match s.input with
    | none =>
      if ← openNext (s.position + 100) then nextRecord fuel else return none
    | some source =>
      let separator ← globalText (str "RS")
      let isStandard := s.inputName == ['-']
      match cutRecord separator source.rest with
      | none =>
        if isStandard then act (s.process.awaitEnd 0)
        modify fun s => { s with input := none }
        nextRecord fuel
      | some (text, rest, isOpen) =>
        if isOpen && isStandard then act (s.process.awaitEnd 0)
        modify fun s => { s with input := some { rest := rest } }
        return some text

def count (name : Chars) : Step Unit := do
  setGlobal name (.number ((← globalValue name).toNumber + 1))

def readRecord : Step (Option Chars) := do
  match ← nextRecord 10000 with
  | none => return none
  | some text =>
    count (str "NR")
    count (str "FNR")
    return some text

/-- What a name is read from: a file, or the output of a command. -/
def source? (origin : Origin) (name : Chars) : Step (Option Source) := do
  let s ← get
  match s.sources.lookup name with
  | some source => return some source
  | none =>
    if origin == .command then
      flush
      let (text, ending) ← act (s.process.readCommand s.start shellPath name)
      return some { rest := text, status := statusOf ending }
    else
      match ← act (s.process.readInput name) with
      | .ok text => return some { rest := text }
      | .error _ => return none

/-- The next record from a file or a command, or nothing at its end; the flag says that it can be
read. -/
def readFrom (origin : Origin) (name : Chars) : Step (Option Chars × Bool) := do
  match ← source? origin name with
  | none => return (none, false)
  | some source =>
    let set' (source : Source) : Step Unit :=
      modify fun s => { s with
        sources := (name, source) :: s.sources.filter (·.1 ≠ name) }
    match cutRecord (← globalText (str "RS")) source.rest with
    | none =>
      set' source
      return (none, true)
    | some (text, rest, _) =>
      set' { source with rest := rest }
      return (some text, true)

def close (name : Chars) : Step Int := do
  let s ← get
  match s.writers.lookup name with
  | some w => return (← closeWriter name w)
  | none =>
    match s.sources.lookup name with
    | some source =>
      set { s with sources := s.sources.filter (·.1 ≠ name) }
      return source.status
    | none => return -1

/-! ## Expressions -/

/-- What evaluates expressions and runs statements inside of others. -/
structure Level where
  eval : Expr → Step Value
  exec : Statement → Step Unit

def callSteps : Nat := 10

def itemSteps : Nat := 25

def maxKey : Int := 2147483647

def Value.toKey (v : Value) : Step Key := do
  match v with
  | .number x =>
    match integer? x with
    | some n => return if -maxKey ≤ n && n ≤ maxKey then .number n else .text (Chars.ofInt n)
    | none =>
      match quantityOf x with
      | .finite negative num den =>
        if den = 1 && num ≤ signedBound then
          return .text (Chars.ofInt (nearestSigned (.finite negative num den)))
        else return .text (formattedNumber (← globalText (str "CONVFMT")) x)
      | _ => return .text (← textOf v)
  | v => return .text (← textOf v)

def keyOf (below : Level) (index : List Expr) : Step Key := do
  match index with
  | [e] => Value.toKey (← below.eval e)
  | index =>
    let texts ← index.mapM fun e => do
      return (← Value.toKey (← below.eval e)).toText
    return .text ((← globalText (str "SUBSEP")).intercalate texts)

def fieldNumber (below : Level) (e : Expr) : Step Nat := do
  let x := (← below.eval e).toNumber
  match wholePart? x with
  | some n =>
    if n < 0 then dieRunning (str "negative field index $" ++ Chars.ofInt n)
    else return n.toNat
  | none => return 0

/-- What is assigned to: a variable, an item of an array, or a field. -/
inductive Place where
  | variable (name : Chars)
  | item (array : Nat) (key : Key)
  | field (number : Nat)

/-- The place that an expression names.  Its index is evaluated here and only here, and an item that
is named is there from then on.  The record, named by a number that is computed, is dropped if it has
not been cut. -/
def placeOf (below : Level) (target : Expr) : Step Place := do
  match target with
  | .item array index =>
    let key ← keyOf below index
    act (Machine.spend itemSteps)
    let n ← arrayNumber array
    withTable n fun t => ((), (t.get key).2)
    return .item n key
  | .field (.number x) => return .field (← fieldNumber below (.number x))
  | .field e =>
    let n ← fieldNumber below e
    if n = 0 then dropUncut
    return .field n
  | .name n =>
    cutBefore n
    return .variable n
  | _ => return .variable []

def Place.get : Place → Step Value
  | .variable n => valueOf n
  | .item n key => withTable n fun t => t.get key
  | .field n => Record.field n

def Place.set (v : Value) : Place → Step Unit
  | .variable n => setVariable n v
  | .item n key => changeTable n fun t => t.set key v
  | .field n => setField n v

/-- The pattern that an expression is, or whose text it gives. -/
def patternFrom (below : Level) (e : Expr) : Step Regex := do
  match e with
  | .regex r | .group (.regex r) => return r
  | e =>
    match pattern (← textOf (← below.eval e)), e with
    | .ok r, _ => return r
    | .error fault, .text _ => die (str "line 1: " ++ fault)
    | .error fault, _ => dieRunning fault

def isMatch (r : Regex) (text : Chars) : Bool := r.occursIn { text := text.toArray }

def compute (op : Operation) (a b : Float) : Float :=
  match op with
  | .sum => a + b
  | .difference => a - b
  | .product => a * b
  | .quotient => a / b
  | .remainder => remainderOf a b
  | .power => Float.pow a b

def lengthBound : Float := 2147483648

def substring (text : Chars) (start : Float) (length : Option Float) : Chars :=
  let whole (x : Float) : Int := match quantityOf x with
    | .infinite negative => if negative then -1000000000 else 1000000000
    | _ => (wholePart? x).getD 0
  let first := whole start
  match length with
  | none => if lengthBound < start then text else text.drop (first - 1).toNat
  | some x =>
    let n := if lengthBound ≤ x then 0 else whole x
    if first ≤ 0 then text.take (n - first).toNat else (text.drop (first - 1).toNat).take n.toNat

/-- The next number of a sequence that looks like chance. -/
def nextRandom : Step Float :=
  modifyGet fun s =>
    let (n, chance) := s.chance.next
    (Float.ofNat n / Float.ofNat Lagged.largest, { s with chance := chance })

/-- Begins the sequence of a seed; gives the seed before it. -/
def sow (seed : Value) : Step Value := do
  let x := seed.toNumber
  let n := ((wholePart? x).getD 0 % 4294967296).toNat
  modifyGet fun s => (s.seed, { s with seed := .number x, chance := .ofSeed n })

def now : Step Nat := do
  return Calendar.epoch + (← getThe Machine).micros / 1000000

/-- The zone whose clocks show the time to the program. -/
def zone : Step Calendar.Zone := do
  return .ofSetting ((← get).process.setting? "TZ")

/-- The integers at the front of a text, with blanks between them.  `fuel` bounds them. -/
def leadingIntegers : (fuel : Nat) → Chars → List Int
  | 0, _ => []
  | fuel + 1, text =>
    let text := text.dropWhile Chars.isSpace
    let (negative, body) := match text with
      | '-' :: rest => (true, rest)
      | '+' :: rest => (false, rest)
      | rest => (false, rest)
    let digits := body.takeWhile Char.isDigit
    if digits.isEmpty then []
    else
      let n : Int := Chars.digitsValue digits
      (if negative then -n else n) :: leadingIntegers fuel (body.drop digits.length)

/-- The moment of a text of year, month, day, hour, minute and second, to which a flag for summer may
be added; what is left out makes it a fault. -/
def momentOf (z : Calendar.Zone) (text : Chars) : Int :=
  let count (year month day hour minute second : Int) : Int :=
    Calendar.daysTo year month day * Calendar.daySeconds + hour * 3600 + minute * 60 + second
  match leadingIntegers 7 text with
  | [year, month, day, hour, minute, second] => z.momentOf (count year month day hour minute second)
  | [year, month, day, hour, minute, second, isSummer] =>
    let shown := count year month day hour minute second
    if z.summer.isNone && 0 < isSummer then shown - z.standard.ahead - 3600 else z.momentOf shown
  | _ => -1

def timeText (z : Calendar.Zone) (format : Chars) (seconds : Int) : Chars :=
  Calendar.text false (Calendar.momentIn z seconds 0) (orElse format (str "%c"))

/-- Replaces matches in a variable, an item or a field; says how many. -/
def replaceIn (below : Level) (all : Bool) (r : Regex) (new : Chars) (target : Expr) :
    Step Value := do
  let place ← placeOf below target
  let text ← textOf (← place.get)
  let s : Subject := { text := text.toArray }
  let (text, n) :=
    replaceMatches r (fun found => replacement found new) all s (text.length + 2) 0 none
  if 0 < n then place.set (.text text)
  return .ofNat n

def splitInto (array : Chars) (parts : List Chars) : Step Value := do
  let row := (parts.map Value.input).toArray
  changeTable (← arrayNumber array) fun _ => Table.ofRow row
  return .ofNat row.size

def wrongArguments {α : Type} (name : String) : Step α :=
  die (str "line 1: wrong number of arguments in call to " ++ str name)

def builtin (below : Level) (name : String) (arguments : List Expr) : Step Value := do
  let number (e : Expr) : Step Float := do
    return (← below.eval e).toNumber
  let text (e : Expr) : Step Chars := do
    let s ← textOf (← below.eval e)
    act (Machine.spendCopying s.length)
    return s
  act (Machine.spend callSteps)
  match name, arguments with
  | "length", [] => return .ofNat (← textOf (← record)).length
  | "length", [.name n] =>
    match ← slot? n with
    | some (.array k) | some (.fresh k) => return .ofNat (← withTable k fun t => (t.size, t))
    | _ => return .ofNat (← text (.name n)).length
  | "length", [e] => return .ofNat (← text e).length
  | "substr", [e, start] => return .text (substring (← text e) (← number start) none)
  | "substr", [e, start, n] =>
    return .text (substring (← text e) (← number start) (some (← number n)))
  | "index", [e, part] =>
    let s ← text e
    let part ← text part
    let found := (List.range (s.length + 1)).find? fun i => part.isPrefixOf (s.drop i)
    return .ofNat (found.elim 0 (· + 1))
  | "split", [e, .name array] =>
    splitInto array (fieldsOf (← globalText (str "FS")) (← text e))
  | "split", [e, .name array, .regex r] =>
    let s ← text e
    splitInto array (if s.isEmpty then []
      else splitAt r { text := s.toArray } (s.length + 1) 0 0)
  | "split", [e, .name array, separator] =>
    let s ← text e
    splitInto array (fieldsOf (← text separator) s)
  | "sub", [p, new] =>
    replaceIn below false (← patternFrom below p) (← text new) (.field (.number 0))
  | "sub", [p, new, target] =>
    replaceIn below false (← patternFrom below p) (← text new) target
  | "gsub", [p, new] =>
    replaceIn below true (← patternFrom below p) (← text new) (.field (.number 0))
  | "gsub", [p, new, target] => replaceIn below true (← patternFrom below p) (← text new) target
  | "match", [e, p] =>
    let s ← text e
    let (start, length) : Int × Int := match find? (← patternFrom below p) s 0 with
      | some (i, j) => (i + 1, j - i)
      | none => (0, -1)
    setGlobal (str "RSTART") (.number (ofInt start))
    setGlobal (str "RLENGTH") (.number (ofInt length))
    return .number (ofInt start)
  | "sprintf", format :: rest =>
    let format ← text format
    let values ← rest.mapM below.eval
    let (text, fault?) := formatted (← globalText (str "CONVFMT")) format values
    match fault? with
    | none => return .text text
    | some fault => dieRunning (fault.message (str "sprintf") format)
  | "sin", [e] => return .number (Float.sin (← number e))
  | "cos", [e] => return .number (Float.cos (← number e))
  | "atan2", [y, x] => return .number (Float.atan2 (← number y) (← number x))
  | "exp", [e] => return .number (Float.exp (← number e))
  | "log", [e] => return .number (Float.log (← number e))
  | "sqrt", [e] => return .number (Float.sqrt (← number e))
  | "int", [e] =>
    let x ← number e
    return .number ((wholePart? x).elim x ofInt)
  | "rand", [] => return .number (← nextRandom)
  | "srand", [] => sow (.ofNat (← now))
  | "srand", [e] => sow (← below.eval e)
  | "tolower", [e] => return .text ((← text e).map Char.toLower)
  | "toupper", [e] => return .text ((← text e).map Char.toUpper)
  | "system", [e] => return .ofNat (statusOf (← runCommand Process.shellWord (← text e) none))
  | "close", e :: _ => return .number (ofInt (← close (← text e)))
  | "fflush", _ =>
    flush
    return .number 0
  | "systime", [] => return .ofNat (← now)
  | "mktime", [e] => return .number (ofInt (momentOf (← zone) (← text e)))
  | "strftime", [] => return .text (timeText (← zone) [] (← now))
  | "strftime", [format] => return .text (timeText (← zone) (← text format) (← now))
  | "strftime", [format, e] =>
    let format ← text format
    return .text (timeText (← zone) format ((wholePart? (← number e)).getD 0))
  | "strftime", [format, e, isUniversal] =>
    let format ← text format
    let seconds := (wholePart? (← number e)).getD 0
    let zone ← if (← number isUniversal) != 0 then
        pure { standard := { name := str "GMT" } : Calendar.Zone }
      else zone
    return .text (timeText zone format seconds)
  | name, _ => wrongArguments name

/-- What a function gets for an argument: a value, or an array. -/
def argument (below : Level) (e : Expr) : Step Slot := do
  match e with
  | .name ['N', 'F'] => return .value (← fieldCount)
  | .name n =>
    match ← slot? n with
    | some (.value .unset) | none =>
      let k ← newTable
      setSlot n (.fresh k)
      return .fresh k
    | some slot => return slot
  | e => return .value (← below.eval e)

def callFunction (below : Level) (name : Chars) (arguments : List Expr) : Step Value := do
  match (← get).script.functions.lookup name with
  | none => die (str "line 2: function " ++ name ++ str " never defined")
  | some f =>
    if f.parameters.length < arguments.length then
      die (str "line 1: too many arguments in call to " ++ name)
    let given ← arguments.mapM (argument below)
    let own := given ++ List.replicate (f.parameters.length - given.length) (.value .unset)
    act (Machine.spend callSteps)
    modify fun s => { s with frames := f.parameters.zip own :: s.frames }
    let leave : Step Unit := modify fun s => { s with frames := s.frames.drop 1 }
    try
      below.exec f.body
      leave
      return .unset
    catch signal =>
      leave
      match signal with
      | .returned v => return v
      | signal => throw signal

/-- Reads a record into a place, and says how that went. -/
def readInto (origin : Origin) (name : Chars) (place : Option Place) : Step Value := do
  let (text, ok) ← if origin == .inputs then pure (← readRecord, true) else readFrom origin name
  match text with
  | none => return .number (if ok then 0 else -1)
  | some text =>
    match place with
    | none => setRecord (.input text)
    | some place => place.set (.input text)
    return .number 1

/-- Reads a record into a target.  The target is looked at before the name of a file, and behind the
text of a command. -/
def getline (below : Level) (origin : Origin) (source target : Option Expr) : Step Value := do
  let name : Step Chars := do
    match source with
    | some e => textOf (← below.eval e)
    | none => return []
  if origin == .command then
    let command ← name
    readInto origin command (← target.mapM (placeOf below))
  else
    let place ← target.mapM (placeOf below)
    readInto origin (← name) place

def evalWith (below : Level) (e : Expr) : Step Value := do
  match e with
  | .number x => return .number x
  | .text s => return .text s
  | .regex r => return .ofBool (isMatch r (← textOf (← record)))
  | .name n => valueOf n
  | .item array index =>
    let key ← keyOf below index
    act (Machine.spend itemSteps)
    withTable (← arrayNumber array) fun t => t.get key
  | .field e => field (← fieldNumber below e)
  | .assign target op value =>
    let place ← placeOf below target
    let new ← below.eval value
    let new ← match op with
      | none => pure new
      | some op => do
        pure (Value.number (compute op (← place.get).toNumber new.toNumber))
    place.set new
    return new
  | .choice test yes no =>
    if (← below.eval test).toTruth then below.eval yes else below.eval no
  | .both a b =>
    if (← below.eval a).toTruth then return .ofBool (← below.eval b).toTruth
    else return .ofBool false
  | .either a b =>
    if (← below.eval a).toTruth then return .ofBool true
    else return .ofBool (← below.eval b).toTruth
  | .contains index array =>
    let key ← keyOf below index
    return .ofBool (← withTable (← arrayNumber array) fun t => t.contains key)
  | .matching negated e p =>
    let text ← textOf (← below.eval e)
    return .ofBool (isMatch (← patternFrom below p) text != negated)
  | .arithmetic op a b =>
    let x := (← below.eval a).toNumber
    return .number (compute op x (← below.eval b).toNumber)
  | .comparison r a b =>
    let a ← below.eval a
    let b ← below.eval b
    if a.isNumeric && b.isNumeric then
      return .ofBool (Value.numbersStand r a.toNumber b.toNumber)
    else
      let format ← globalText (str "CONVFMT")
      return .ofBool (Value.textsStand r (a.toText format) (b.toText format))
  | .joined a b =>
    let s ← textOf (← below.eval a)
    let t ← textOf (← below.eval b)
    act (Machine.spendCopying (s.length + t.length))
    return .text (s ++ t)
  | .not e => return .ofBool (!(← below.eval e).toTruth)
  | .negative e => return .number (-(← below.eval e).toNumber)
  | .positive e => return .number (← below.eval e).toNumber
  | .step first up target =>
    let place ← placeOf below target
    let old := (← place.get).toNumber
    let new := if up then old + 1 else old - 1
    place.set (.number new)
    return .number (if first then new else old)
  | .group e => below.eval e
  | .call name arguments => callFunction below name arguments
  | .builtin name arguments => builtin below name arguments
  | .getline origin source target => getline below origin source target

/-! ## Statements -/

/-- Runs the body of a loop; says whether the loop goes on. -/
def runBody (body : Step Unit) : Step Bool := do
  try
    body
    return true
  catch signal =>
    match signal with
    | .stopped => return false
    | .onward => return true
    | signal => throw signal

/-- Runs a loop; `next` is done between two rounds.  `fuel` bounds the rounds. -/
def runLoop (test : Step Bool) (body next : Step Unit) : (fuel : Nat) → Step Unit
  | 0 => act (throw (.endless true))
  | fuel + 1 => do
    act (Machine.spend Machine.loopSteps)
    if ← test then
      if ← runBody body then
        next
        runLoop test body next fuel

def runOver (body : Chars → Step Unit) : List Chars → Step Unit
  | [] => return
  | key :: rest => do
    act (Machine.spend Machine.loopSteps)
    if ← runBody (body key) then runOver body rest

def rounds : Step Nat := do
  return (← getThe Machine).steps + 1

/-- What is to be printed of values, and the fault after it. -/
def shown (below : Level) (isFormat : Bool) (items : List Expr) :
    Step (Chars × Option Chars) := do
  let values ← items.mapM below.eval
  match isFormat, values with
  | true, format :: rest =>
    let format ← textOf format
    let (text, fault?) := formatted (← globalText (str "CONVFMT")) format rest
    return (text, fault?.map (FormatFault.message (str "printf") format))
  | _, [] => return ((← textOf (← record)) ++ (← globalText (str "ORS")), none)
  | _, values =>
    let format ← globalText (str "OFMT")
    let texts := values.map (Value.toText format)
    return ((← globalText (str "OFS")).intercalate texts ++ (← globalText (str "ORS")), none)

def statementSteps : Nat := 4

def execWith (below : Level) (s : Statement) : Step Unit := do
  act (Machine.spend statementSteps)
  let truth (e : Expr) : Step Bool := do
    return (← below.eval e).toTruth
  match s with
  | .expression e =>
    let _ ← below.eval e
  | .print formatted items sink =>
    act (Machine.spend callSteps)
    let (text, fault?) ← shown below formatted items
    match sink with
    | none => emit text
    | some (sink, name) => writeTo sink (← textOf (← below.eval name)) text
    match fault? with
    | none => return
    | some fault => dieRunning fault
  | .conditional test yes no =>
    if ← truth test then below.exec yes
    else
      match no with
      | some no => below.exec no
      | none => return
  | .loop test body => runLoop (truth test) (below.exec body) (pure ()) (← rounds)
  | .loopAfter body test =>
    if ← runBody (below.exec body) then
      runLoop (truth test) (below.exec body) (pure ()) (← rounds)
  | .loopSteps start test next body =>
    match start with
    | some s => below.exec s
    | none => pure ()
    let goesOn : Step Bool := match test with
      | some e => truth e
      | none => pure true
    let step : Step Unit := match next with
      | some s => below.exec s
      | none => pure ()
    runLoop goesOn (below.exec body) step (← rounds)
  | .loopOver name array body =>
    let keys ← withTable (← arrayNumber array) Table.keys
    runOver (fun key => do
      setVariable name (.text key)
      below.exec body) keys
  | .block body => for s in body do below.exec s
  | .next => throw .next
  | .nextFile => throw .nextFile
  | .exit code =>
    match code with
    | some e =>
      let n := (wholePart? (← below.eval e).toNumber).getD 0
      modify fun s => { s with code := (n % 256).toNat }
    | none => pure ()
    throw .exited
  | .stop => throw .stopped
  | .onward => throw .onward
  | .delete array index =>
    let n ← arrayNumber array
    match index with
    | none => changeTable n fun _ => {}
    | some index =>
      let key ← keyOf below index
      changeTable n fun t => t.remove key
  | .result value =>
    match value with
    | some e => throw (.returned (← below.eval e))
    | none => throw (.returned .unset)

def level : Nat → Level
  | 0 =>
    { eval := fun _ => act (throw (.signaled 11))
      exec := fun _ => act (throw (.signaled 11)) }
  | n + 1 =>
    let below := level n
    { eval := evalWith below, exec := execWith below }

/-- How deep expressions and statements may be nested. -/
def maxDepth : Nat := 100000

/-! ## The program -/

/-- The rule of that number concerns the present record. -/
def concerns (l : Level) (number : Nat) (p : Pattern) : Step Bool := do
  match p with
  | .always => return true
  | .test e => return (← l.eval e).toTruth
  | .range start stop =>
    let isOn := ((← get).ranges.lookup number).getD false
    let begins ← if isOn then pure true else do
      pure (← l.eval start).toTruth
    if begins then
      let ends := (← l.eval stop).toTruth
      modify fun s => { s with ranges := (number, !ends) :: s.ranges.filter (·.1 ≠ number) }
    return begins
  | .first | .last => return false

/-- Lets the rules act on the present record. -/
def runRules (l : Level) : List (Rule × Nat) → Step Unit
  | [] => return
  | (r, number) :: rest => do
    if ← concerns l number r.pattern then
      match r.body with
      | some body => l.exec body
      | none => emit (← shown l false []).1
    runRules l rest

/-- Lets the rules act on the records that are left.  `fuel` bounds them. -/
def runRecords (l : Level) (rules : List (Rule × Nat)) : (fuel : Nat) → Step Unit
  | 0 => act (throw (.endless true))
  | fuel + 1 => do
    act (Machine.spend Machine.commandSteps)
    match ← readRecord with
    | none => return
    | some text =>
      setRecord (.input text)
      try runRules l rules
      catch signal =>
        match signal with
        | .next => pure ()
        | .nextFile => modify fun s => { s with input := none }
        | signal => throw signal
      runRecords l rules fuel

def runSpecial (l : Level) (isLast : Bool) (rules : List Rule) : Step Unit := do
  for r in rules do
    let isMeant := match r.pattern with
      | .first => !isLast
      | .last => isLast
      | _ => false
    if isMeant then
      match r.body with
      | some body => l.exec body
      | none => pure ()

/-- Runs something that the program may leave; says whether it did not. -/
def unlessLeft (body : Step Unit) : Step Bool := do
  try
    body
    return true
  catch signal =>
    match signal with
    | .exited => return false
    | _ => return true

def runScript : Step Unit := do
  let rules := (← get).script.rules
  let l := level maxDepth
  let isFirst (r : Rule) : Bool := match r.pattern with
    | .first => true
    | _ => false
  let _ ← unlessLeft do
    let goesOn ← unlessLeft (runSpecial l false rules)
    if rules.any fun r => !isFirst r then
      if goesOn then
        let _ ← unlessLeft (runRecords l rules.zipIdx (← rounds))
      runSpecial l true rules
  let writers := (← get).writers
  closeAll writers.reverse
  flush

def startGlobals (p : Process) (separator : Chars) (words : List Chars) :
    Std.HashMap Chars Slot × Array Table :=
  let texts : List (String × String) :=
    [("OFS", " "), ("ORS", "\n"), ("RS", "\n"), ("SUBSEP", "\x1c"), ("CONVFMT", "%.6g"),
      ("OFMT", "%.6g"), ("FILENAME", "")]
  let numbers : List (String × Float) :=
    [("NR", 0), ("FNR", 0), ("RSTART", 0), ("RLENGTH", -1), ("ARGC", ofNatural words.length)]
  let arguments := words.zipIdx.map fun (w, i) => (Key.number i, Value.input w)
  let environment := p.environment.map fun (name, value) => (Key.text name, Value.input value)
  (.ofList (texts.map (fun (name, s) => (str name, .value (.text (str s)))) ++
    numbers.map (fun (name, x) => (str name, .value (.number x))) ++
    [(str "FS", .value (.text separator)), (str "ARGV", .array 0), (str "ENVIRON", .array 1)]),
    #[Table.ofList arguments, Table.ofList environment])

/-- What the options of the program say: the separator of fields, assignments, and the files of the
program, with their names. -/
structure Given where
  separator : Chars := [' ']
  assignments : List (Chars × Chars) := []
  files : List (Chars × Chars) := []

def usage : Chars :=
  Chars.ofString ("\n".intercalate [
    "Usage: mawk [Options] [Program] [file ...]",
    "",
    "Program:",
    "    The -f option value is the name of a file containing program text.",
    "    If no -f option is given, a \"--\" ends option processing; the following",
    "    parameters are the program text.",
    "",
    "Options:",
    "    -f program-file  Program  text is read from file instead of from the",
    "                     command-line.  Multiple -f options are accepted.",
    "    -F value         sets the field separator, FS, to value.",
    "    -v var=value     assigns value to program variable var.",
    "    --               unambiguous end of options.",
    "",
    "    Implementation-specific options are prefixed with \"-W\".  They can be",
    "    abbreviated:",
    "",
    "    -W version       show version information and exit.",
    "    -W compat        pre-POSIX 2001.",
    "    -W dump          show assembler-like listing of program and exit.",
    "    -W help          show this message and exit.",
    "    -W interactive   set unbuffered output, line-buffered input.",
    "    -W exec file     use file as program as well as last option.",
    "    -W posix         stricter POSIX checking.",
    "    -W random=number set initial random seed.",
    "    -W sprintf=number adjust size of sprintf buffer.",
    "    -W usage         show this message and exit.", ""])

/-- The options that have names, which may be cut short. -/
def namedOptions : List String :=
  ["exec", "help", "interactive", "posix", "random", "sprintf", "traditional", "usage"]

def addFile (p : Process) (g : Given) (path : Chars) : Act Given := do
  match ← p.readInput path with
  | .ok text => return { g with files := g.files ++ [(path, text)] }
  | .error fault =>
    p.fail 2 (str "cannot open \"" ++ path ++ str "\" (" ++ Process.reason fault ++ [')'])

/-- Reads the options in front of words.  `fuel` bounds them. -/
def options (p : Process) : (fuel : Nat) → Given → List Chars → Act (Given × List Chars)
  | 0, g, words => return (g, words)
  | _, g, [] => return (g, [])
  | fuel + 1, g, word :: rest => do
    let fail {α : Type} (text : Chars) : Act α := p.fail 2 text
    let named (option : String) (value : Chars) (rest : List Chars) :
        Act (Given × List Chars) := do
      match option with
      | "help" | "usage" =>
        p.print usage
        throw (.exited 0)
      | "exec" =>
        match value, rest with
        | [], [] => fail (str "option " ++ word ++ str " lacks argument")
        | [], path :: rest => return (← addFile p g path, rest)
        | path, rest => return (← addFile p g path, rest)
      | "random" | "sprintf" => options p fuel g (if value.isEmpty then rest.drop 1 else rest)
      | _ => options p fuel g rest
    match word with
    | ['-', '-'] => return (g, rest)
    | '-' :: '-' :: long =>
      match namedOptions.find? fun name => str name == long.takeWhile (· != '=') with
      | some option => named option (long.drop (option.length + 1)) rest
      | none => fail (str "not an option: " ++ word)
    | '-' :: letter :: more =>
      if !"FvfW".toList.contains letter then fail (str "not an option: " ++ word)
      else
        let (value, rest) ← match more, rest with
          | [], [] => fail (str "option " ++ word ++ str " lacks argument")
          | [], value :: rest => pure (value, rest)
          | more, rest => pure (more, rest)
        match letter with
        | 'F' => options p fuel { g with separator := (textEscapes.apply value).1 } rest
        | 'v' =>
          match assignment? value with
          | some a => options p fuel { g with assignments := g.assignments ++ [a] } rest
          | none => fail (str "improper assignment: -v " ++ value)
        | 'W' =>
          let name := (value.takeWhile (· != '=')).map Char.toLower
          match namedOptions.find? fun option => name.isPrefixOf option.toList with
          | some option => named option (value.drop (name.length + 1)) rest
          | none =>
            p.warn (str "vacuous option: -W \"" ++ value ++ ['"'])
            options p fuel g rest
        | _ => options p fuel (← addFile p g value) rest
    | word => return (g, word :: rest)

end ProductLine.Shell.Record

namespace ProductLine.Shell

def Tool.awk (start : Program → Process → Act Unit) : Tool := fun p => do
  let (given, words) ← Record.options p (p.arguments.length + 1) {} p.arguments
  let (sources, words) ← match given.files, words with
    | [], [] => do
      p.complain Record.usage
      throw (.exited 0)
    | [], text :: rest => pure ([(none, text)], rest)
    | files, words => pure (files.map fun (name, text) => (some name, text), words)
  let separators := given.separator ::
    (given.assignments.filter fun a => Record.separatorNames.contains a.1).map Prod.snd
  match Record.Script.read sources (given.assignments.map Prod.fst) separators with
  | .error complaints =>
    for complaint in complaints do
      p.complain (p.name ++ str ": " ++ complaint ++ ['\n'])
    throw (.exited 2)
  | .ok script =>
    let (globals, heap) := Record.startGlobals p given.separator (p.name :: words)
    let assigned := given.assignments.foldl
      (fun (all : Std.HashMap Chars Record.Slot) (name, value) =>
        all.insert name (.value (.input value))) globals
    let state : Record.State :=
      { process := p, start := start, script := script, globals := assigned, heap := heap }
    let (_, state) ← (Record.runScript.run).run state
    Process.done state.code

end ProductLine.Shell
