/- # Tools on values — texts, numbers, conditions and dates

These programs print what they make of their arguments, or answer a question
by their status.
-/
import ProductLine.Shell.Calendar.Read
import ProductLine.Shell.Condition
import ProductLine.Shell.Format
import ProductLine.Shell.Regex.Read
import ProductLine.Shell.Tool.Basic

namespace ProductLine.Shell.Tool

/-! ## Texts -/

def echoLetters : List Chars → Chars × List Chars
  | [] => ([], [])
  | word :: rest =>
    match word with
    | '-' :: c :: more =>
      if (c :: more).all "neE".toList.contains then
        let (letters, rest) := echoLetters rest
        (c :: more ++ letters, rest)
      else ([], word :: rest)
    | _ => ([], word :: rest)

def echo : Tool := fun p => do
  let (letters, words) := echoLetters p.arguments
  let text := [' '].intercalate words
  let interprets := (letters.reverse.find? fun c => c == 'e' || c == 'E') == some 'e'
  let escapes : Escapes := { zeroOctal := true, plainOctal := false, hex := true, stop := true }
  let (text, stopped) := if interprets then escapes.apply text else (text, false)
  p.print (if stopped || letters.contains 'n' then text else text ++ ['\n'])

def printf : Tool := fun p => do
  let words := if p.arguments.head? == some (str "--") then p.arguments.drop 1 else p.arguments
  match words with
  | [] => p.failWithHint 1 (str "missing operand")
  | format :: arguments =>
    let r := formatWith .program (.ofSetting none) format arguments
    for complaint in r.complaints do p.warn complaint
    p.print r.output
    Process.done (if r.failed then 1 else 0)

def test : Tool := fun p => do
  let inBrackets := lastName p.name == ['[']
  if inBrackets && p.arguments.getLast? != some [']'] then
    p.fail 2 (unclosedCondition .program)
  else
    let words := if inBrackets then p.arguments.dropLast else p.arguments
    match conditionValue .program (← p.fileView) words with
    | .ok value => Process.done (if value then 0 else 1)
    | .error complaint => p.fail 2 complaint
where
  /-- The last step of a path. -/
  lastName (path : Chars) : Chars := (path.reverse.takeWhile (· != '/')).reverse

/-! ## Expressions -/

namespace Expr

abbrev Fault := Nat × Chars

/-- A step of an evaluation over the words that are left. -/
abbrev Eval := StateT (List Chars) (Except Fault)

def fault {α : Type} (status : Nat) (text : Chars) : Eval α :=
  throw (status, text)

def nextOf (words : List String) : Eval (Option String) := do
  match ← get with
  | word :: rest =>
    let text := String.ofList word
    if words.contains text then
      set rest
      return some text
    else return none
  | [] => return none

def next (all : List Chars) : Eval Chars := do
  match ← get with
  | word :: rest =>
    set rest
    return word
  | [] =>
    fault 2 (str "syntax error: missing argument after " ++ Chars.quoted (all.getLastD []))

def integer (value : Chars) : Eval Int := do
  match value with
  | '+' :: _ => fault 2 (str "non-integer argument")
  | value =>
    match Chars.toInt? value with
    | some n => return n
    | none => fault 2 (str "non-integer argument")

def isFalse (value : Chars) : Bool :=
  let digits := if value.head? == some '-' then value.drop 1 else value
  value.isEmpty || (!digits.isEmpty && digits.all (· == '0'))

/-- What a regular expression matches at the front of a text. -/
def matched (text pattern : Chars) : Eval Chars := do
  match Regex.read { basicRegex with downward := .nothing } pattern with
  | .error complaint => fault 2 complaint.toList
  | .ok regex =>
    let subject : Subject := { text := text.toArray }
    let hasGroup := (String.ofList pattern).splitOn "\\(" |>.length
    match regex.matchAt subject 0 with
    | some (j, groups) =>
      return if 1 < hasGroup then Regex.groupText subject groups 1 else Chars.ofNat j
    | none => return if 1 < hasGroup then [] else ['0']

def truth (b : Bool) : Chars := if b then ['1'] else ['0']

/-- A value of one word, or what a function makes of words. -/
def primary (all : List Chars) (whole : Eval Chars) : Eval Chars := do
  match ← nextOf ["(", "length", "match", "index", "substr", "+"] with
  | some "(" =>
    let value ← whole
    match ← get with
    | [')'] :: rest =>
      set rest
      return value
    | word :: _ =>
      fault 2 (str "syntax error: expecting ')' instead of " ++ Chars.quoted word)
    | [] => fault 2 (str "syntax error: expecting ')' after " ++ Chars.quoted (all.getLastD []))
  | some "length" => return Chars.ofNat (← next all).length
  | some "match" =>
    let text ← next all
    matched text (← next all)
  | some "index" =>
    let text ← next all
    let chars ← next all
    return Chars.ofNat (((text.findIdx? chars.contains).map (· + 1)).getD 0)
  | some "substr" =>
    let text ← next all
    let start ← next all
    let size ← next all
    match Chars.toInt? start, Chars.toInt? size with
    | some i, some n =>
      return if i ≤ 0 || n ≤ 0 then [] else (text.drop (i.toNat - 1)).take n.toNat
    | _, _ => return []
  | some "+" => next all
  | _ =>
    match ← get with
    | [')'] :: _ => fault 2 (str "syntax error: unexpected ')'")
    | _ => next all

/-- Parts joined by operators, from left to right.  `fuel` bounds them. -/
def chain (operators : List String) (part : Eval Chars)
    (join : String → Chars → Chars → Eval Chars) : (fuel : Nat) → Chars → Eval Chars
  | 0, value => return value
  | fuel + 1, value => do
    match ← nextOf operators with
    | some op => chain operators part join fuel (← join op value (← part))
    | none => return value

def arithmetic (op : String) (a b : Chars) : Eval Chars := do
  let m ← integer a
  let n ← integer b
  match op with
  | "+" => return Chars.ofInt (m + n)
  | "-" => return Chars.ofInt (m - n)
  | "*" => return Chars.ofInt (m * n)
  | op =>
    if n = 0 then fault 2 (str "division by zero")
    else return Chars.ofInt (if op == "/" then Int.tdiv m n else Int.tmod m n)

/-- Compares values: as integers if both are. -/
def comparison (op : String) (a b : Chars) : Eval Chars := do
  let order := match Chars.toInt? a, Chars.toInt? b with
    | some m, some n => compare m n
    | _, _ => Chars.compare a b
  return truth (match op with
    | "<" => order == .lt
    | "<=" => order != .gt
    | "=" | "==" => order == .eq
    | "!=" => order != .eq
    | ">=" => order != .lt
    | _ => order == .gt)

/-- The value of an expression.  `fuel` bounds its depth. -/
def whole (all : List Chars) : (fuel : Nat) → Eval Chars
  | 0 => fault 2 (str "syntax error")
  | fuel + 1 => do
    let inner := whole all fuel
    let size := all.length + 1
    let level (operators : List String) (part : Eval Chars)
        (join : String → Chars → Chars → Eval Chars) : Eval Chars := do
      chain operators part join size (← part)
    let matching := level [":"] (primary all inner) fun _ a b => matched a b
    let product := level ["*", "/", "%"] matching arithmetic
    let sum := level ["+", "-"] product arithmetic
    let compared := level ["<", "<=", "=", "==", "!=", ">=", ">"] sum comparison
    let both := level ["&"] compared fun _ a b =>
      return if isFalse a || isFalse b then ['0'] else a
    level ["|"] both fun _ a b =>
      return if !isFalse a then a else if isFalse b then ['0'] else b

end Expr

def expr : Tool := fun p => do
  let words := if p.arguments.head? == some (str "--") then p.arguments.drop 1 else p.arguments
  if words.isEmpty then p.failWithHint 2 (str "missing operand")
  match (Expr.whole words (words.length + 1)).run words with
  | .error (status, text) => p.fail status text
  | .ok (value, rest) =>
    match rest with
    | [] =>
      p.print (value ++ ['\n'])
      Process.done (if Expr.isFalse value then 1 else 0)
    | word :: _ =>
      p.fail 2 (str "syntax error: unexpected argument " ++ Chars.quoted word)

/-! ## Sequences -/

/-- A decimal number: an integer over a power of ten. -/
structure Decimal where
  value : Int
  places : Nat

def decimal? (text : Chars) : Option Decimal :=
  let (negative, body) := match text with
    | '-' :: rest => (true, rest)
    | '+' :: rest => (false, rest)
    | rest => (false, rest)
  let whole := body.takeWhile Char.isDigit
  let make (places : Chars) : Option Decimal :=
    if whole.isEmpty && places.isEmpty || !places.all Char.isDigit then none
    else
      let n : Int := Chars.digitsValue (whole ++ places)
      some ⟨if negative then -n else n, places.length⟩
  match body.drop whole.length with
  | [] => make []
  | '.' :: places => make places
  | _ => none

/-- The value of a decimal number over another power of ten. -/
def Decimal.scaled (d : Decimal) (places : Nat) : Int :=
  d.value * (Nat.pow 10 (places - d.places) : Nat)

/-- An integer over a power of ten in digits. -/
def decimalText (value : Int) (places : Nat) : Chars :=
  (if value < 0 then ['-'] else []) ++ fixedText value.natAbs (Nat.pow 10 places) places false

def seqForm (format : Chars) (value : Int) (places : Nat) : Chars :=
  let rec go : Chars → Chars
    | '%' :: '%' :: rest => '%' :: go rest
    | '%' :: rest =>
      let spec := rest.takeWhile fun c => !c.isAlpha
      let behind := rest.drop spec.length
      let flags := spec.takeWhile "-+ #0".toList.contains
      let widthText := (spec.drop flags.length).takeWhile Char.isDigit
      let precision := match (spec.drop (flags.length + widthText.length)) with
        | '.' :: digits => some (Chars.digitsValue digits)
        | _ => none
      let f : Field :=
        { left := flags.contains '-', zero := flags.contains '0', plus := flags.contains '+'
          space := flags.contains ' ', width := Chars.digitsValue widthText
          precision := precision }
      f.real (behind.headD 'g') (.finite (value < 0) value.natAbs (Nat.pow 10 places)) ++
        behind.drop 1
    | c :: rest => c :: go rest
    | [] => []
  go format

/-- How many numbers of a sequence are printed at once. -/
def sequencePart : Nat := 5000

def sequenceSteps : Nat := 10000

def printSequence (p : Process) (show' : Int → Chars) (separator : Chars) (step last : Int) :
    (fuel : Nat) → (value : Int) → (isFirst : Bool) → Act Unit
  | 0, _, _ => throw (.endless true)
  | fuel + 1, value, isFirst => do
    let isOver (v : Int) : Bool := if 0 < step then last < v else v < last
    let all := (List.range sequencePart).map fun (i : Nat) => value + i * step
    let values := all.filter (!isOver ·)
    let text := separator.intercalate (values.map show')
    if !values.isEmpty then p.print ((if isFirst then [] else separator) ++ text)
    if values.length < sequencePart then
      if !(isFirst && values.isEmpty) then p.print ['\n']
    else
      Machine.spend sequenceSteps
      printSequence p show' separator step last fuel (value + sequencePart * step) false

def seqOptions : (fuel : Nat) → List Chars → List Given → Except Chars (List Given × List Chars)
  | 0, words, given => .ok (given, words)
  | fuel + 1, words, given =>
    match words with
    | ['-', '-'] :: rest => .ok (given, rest)
    | ('-' :: c :: more) :: rest =>
      if c.isDigit || c == '.' then .ok (given, words)
      else
        let long := String.ofList (c :: more)
        if c == 'w' && more.isEmpty || long == "-equal-width" then
          seqOptions fuel rest (('w', none) :: given)
        else if c == 's' || c == 'f' then
          if !more.isEmpty then seqOptions fuel rest ((c, some more) :: given)
          else
            match rest with
            | value :: rest => seqOptions fuel rest ((c, some value) :: given)
            | [] => .error (str "option requires an argument -- '" ++ [c, '\''])
        else if long.startsWith "-separator=" then
          seqOptions fuel rest (('s', some ((c :: more).drop 11)) :: given)
        else if c == '-' then .error (str "unrecognized option '-" ++ (c :: more) ++ ['\''])
        else .error (str "invalid option -- '" ++ [c, '\''])
    | words => .ok (given, words)

def seq : Tool := fun p => do
  match seqOptions (p.arguments.length + 1) p.arguments [] with
  | .error complaint => p.failWithHint 1 complaint
  | .ok (given, words) =>
    let number (text : Chars) : Act Decimal := do
      match decimal? text with
      | some d => return d
      | none => p.failWithHint 1 (str "invalid floating point argument: " ++ Chars.quoted text)
    let one : Decimal := ⟨1, 0⟩
    let (first, step, last, stepText) ← match words with
      | [] => p.failWithHint 1 (str "missing operand")
      | [a] => pure (one, one, ← number a, ['1'])
      | [a, b] => pure (← number a, one, ← number b, ['1'])
      | [a, b, c] => pure (← number a, ← number b, ← number c, b)
      | _ :: _ :: _ :: extra :: _ =>
        p.failWithHint 1 (str "extra operand " ++ Chars.quoted extra)
    if step.value = 0 then
      p.failWithHint 1 (str "invalid Zero increment value: " ++ Chars.quoted stepText)
    let places := max first.places step.places
    let common := max places last.places
    let divisor : Int := (Nat.pow 10 (common - places) : Nat)
    let width := max (decimalText (first.scaled places) places).length
      (decimalText (Int.tdiv (last.scaled common) divisor) places).length
    let show' (value : Int) : Chars :=
      let value := Int.tdiv value divisor
      match (given.find? (·.1 == 'f')).bind Prod.snd with
      | some format => seqForm format value places
      | none =>
        let text := decimalText value places
        if !given.any (·.1 == 'w') then text
        else if value < 0 then '-' :: padZeros (width - 1) (text.drop 1)
        else padZeros width text
    let separator := ((given.find? (·.1 == 's')).bind Prod.snd).getD ['\n']
    printSequence p show' separator (step.scaled common) (last.scaled common)
      ((← get).steps + 1) (first.scaled common) true

/-- The smallest factor of a number from `d` on.  `fuel` bounds the search. -/
def factorsFrom : (fuel d n : Nat) → List Nat
  | 0, _, n => [n]
  | fuel + 1, d, n =>
    if n < 2 then []
    else if n < d * d then [n]
    else if n % d = 0 then d :: factorsFrom fuel d (n / d)
    else factorsFrom fuel (d + 1) n

def factor : Tool := fun p => do
  let words ← if p.arguments.isEmpty then do
      match ← p.readInput ['-'] with
      | .ok text => pure (Chars.words text)
      | .error _ => pure []
    else pure p.arguments
  let mut status := 0
  for word in words do
    match Chars.toNat? word with
    | some n =>
      p.print (Chars.ofNat n ++ ':' ::
        (factorsFrom 200000 2 n).flatMap (fun f => ' ' :: Chars.ofNat f) ++ ['\n'])
    | none =>
      p.warn (Chars.quoted word ++ str " is not a valid positive integer")
      status := 1
  Process.done status

/-! ## Dates -/

/-- The forms of a date that options of `date` name, from days to nanoseconds; `isShort` says that a
blank and no letter stands before the time, and a point before the parts of a second. -/
def dateForm? (isShort : Bool) (name : Chars) : Option String :=
  let front (time : String) : String := "%Y-%m-%d" ++ (if isShort then " " else "T") ++ time
  let isMeant (full : String) : Bool := !name.isEmpty && name.isPrefixOf full.toList
  if isMeant "date" then some "%Y-%m-%d"
  else if !isShort && isMeant "hours" then some (front "%H%:z")
  else if !isShort && isMeant "minutes" then some (front "%H:%M%:z")
  else if isMeant "seconds" then some (front "%H:%M:%S%:z")
  else if isMeant "ns" then some (front (if isShort then "%H:%M:%S.%N%:z" else "%H:%M:%S,%N%:z"))
  else none

def dateFormat (p : Process) (given : List Given) : Act String := do
  let chosen := given.find? fun g => "IR3".toList.contains g.1
  match chosen with
  | some ('I', name) =>
    match dateForm? false (name.getD (str "date")) with
    | some format => return format
    | none =>
      p.failWithHint 1 (str "invalid argument " ++ Chars.quoted (name.getD []) ++
        str " for '--iso-8601'\nValid arguments are:\n  - 'hours'\n  - 'minutes'\n  - 'date'" ++
        str "\n  - 'seconds'\n  - 'ns'")
  | some ('R', _) => return "%a, %d %b %Y %H:%M:%S %z"
  | some (_, name) =>
    match dateForm? true (name.getD []) with
    | some format => return format
    | none =>
      p.failWithHint 1 (str "invalid argument " ++ Chars.quoted (name.getD []) ++
        str " for '--rfc-3339'\nValid arguments are:\n  - 'date'\n  - 'seconds'\n  - 'ns'")
  | none => return "%a %b %e %H:%M:%S %Z %Y"

def date : Tool := fun p => do
  let (given, words) ← p.options
    { letters := [('u', .nothing), ('R', .nothing), ('I', .optional), ('d', .argument),
        ('r', .argument), ('f', .argument), ('s', .argument)]
      long := [("utc", 'u', .nothing), ("universal", 'u', .nothing), ("date", 'd', .argument),
        ("rfc-email", 'R', .nothing), ("rfc-2822", 'R', .nothing),
        ("rfc-3339", '3', .argument), ("iso-8601", 'I', .optional),
        ("reference", 'r', .argument), ("file", 'f', .argument), ("set", 's', .argument)] }
  let micros := (← get).micros
  let zone := if Given.has given 'u' then { standard := Calendar.universal }
    else Calendar.Zone.ofSetting (p.setting? "TZ")
  let now := Calendar.momentIn zone (Calendar.epoch + (micros / 1000000 : Nat))
    (micros % 1000000 * 1000)
  let moment ← match Given.last? given 'd' with
    | none => pure now
    | some text =>
      match Calendar.read? zone now text with
      | some (seconds, nanos) => pure (Calendar.momentIn zone seconds nanos)
      | none => p.fail 1 (str "invalid date " ++ Chars.quoted text)
  match words with
  | ('+' :: format) :: more =>
    match more with
    | word :: _ => p.failWithHint 1 (str "extra operand " ++ Chars.quoted word)
    | [] => p.print (Calendar.text true moment format ++ ['\n'])
  | [] =>
    let format ← dateFormat p given
    p.print (Calendar.text true moment (str format) ++ ['\n'])
  | word :: _ =>
    if Given.has given 'd' then
      p.failWithHint 1 (str "the argument " ++ Chars.quoted word ++
        str " lacks a leading '+';\nwhen using an option to specify date(s), any non-option\n" ++
        str "argument must be a format string beginning with '+'")
    else p.fail 1 (str "invalid date " ++ Chars.quoted word)

/-! ## The system -/

def uname : Tool := fun p => do
  let (given, _) ← p.options <| .ofLetters "asnrvmpio" "" [("all", 'a', .nothing)] 1
  let parts := [('s', "Linux"), ('n', "localhost"), ('r', "6.1.0"), ('v', "#1 SMP"),
    ('m', "x86_64"), ('o', "GNU/Linux")]
  let wanted := parts.filter fun part =>
    Given.has given 'a' || Given.has given part.1 || (given.isEmpty && part.1 == 's')
  p.print ([' '].intercalate (wanted.map fun part => part.2.toList) ++ ['\n'])

def id : Tool := fun p => do
  let (given, _) ← p.options <| .ofLetters "ugGnrz" "" [("user", 'u', .nothing),
    ("group", 'g', .nothing), ("groups", 'G', .nothing), ("name", 'n', .nothing)] 1
  let isPart := Given.has given 'u' || Given.has given 'g' || Given.has given 'G'
  p.print (str (if !isPart then "uid=0(root) gid=0(root) groups=0(root)\n"
    else if Given.has given 'n' then "root\n" else "0\n"))

def printenv : Tool := fun p => do
  let (given, names) ← p.options
    { OptionTable.ofLetters "0" "" [("null", '0', .nothing)] 2 with inOrder := true }
  let mark := if Given.has given '0' then '\x00' else '\n'
  if names.isEmpty then
    p.print (p.environment.flatMap fun (name, value) => name ++ '=' :: value ++ [mark])
  else
    let found := names.map fun name => p.environment.lookup name
    p.print (found.flatMap fun value => value.elim [] (· ++ [mark]))
    Process.done (if found.all Option.isSome then 0 else 1)

def which : Tool := fun p => do
  let (given, names) ← p.options <| .ofLetters "a" "" [] 2
  let _ := given
  let path := (p.setting? "PATH").getD Process.defaultSearchPath
  let mut status := 0
  for name in names do
    let candidates := if name.contains '/' then [name] else Process.candidates path name
    let mut found : Option Chars := none
    for candidate in candidates do
      if found.isNone then
        match ← p.runnableFile candidate with
        | .ok _ => found := some candidate
        | .error _ => pure ()
    match found with
    | some path => p.print (path ++ ['\n'])
    | none => status := 1
  Process.done (if names.isEmpty then 1 else status)

end ProductLine.Shell.Tool
