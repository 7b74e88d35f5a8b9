/- # Readers of `awk` — tokens on demand, kinds of names, complaints

What a character means may depend on the statement that it stands in, so
tokens are cut off one by one while the grammar is followed.  A complaint does
not end the reading at once: a statement that is refused is left, and the
reading goes on behind it, until there are too many complaints.

A name is known to be that of a variable, of an array or of a function from
the first use that shows it.  For what a function is given this may show later
than the call, so calls are kept until all is known.
-/
import ProductLine.Shell.Tool.Record.Token
import Std.Data.HashMap

namespace ProductLine.Shell.Record

/-- Names are hashed by core's hash of a character, whichever other ones are in scope. -/
instance hashableChars : Hashable Chars :=
  @instHashableList Char instHashableChar

/-! ## Readers -/

/-- What a name may stand for. -/
inductive Kind where
  | scalar
  | array
deriving DecidableEq

def Kind.word : Kind → String
  | scalar => "variable"
  | array => "array"

/-- What a function is given: something of a known kind, what a global name stands for, or what a
parameter of a function stands for. -/
inductive Handed where
  | known (k : Kind)
  | global (name : Chars)
  | parameter (function : Chars) (number : Nat)

/-- A call of a function, in a line. -/
structure Call where
  function : Chars
  handed : List Handed
  line : Nat

/-- What is known of a function: the kinds of its parameters, as far as uses show them, and their
number once it is defined. -/
structure Signature where
  kinds : List (Option Kind) := []
  count : Option Nat := none

/-- Where the reading is: in a rule, in one before or after all records, or in a function, with what its
parameters stand for there. -/
inductive Scope where
  | main
  | special
  | function (name : Chars) (parameters : List (Chars × Option Kind))

/-- Where the reading of a program stands: what has not been read, which is the rest of a source that
may have a name, and the sources behind it; the token that is looked at, the last one and its line;
how many brackets of either kind are open; whether a sign may stand for where output goes, or for
where input comes from.  Refused tokens are `silent` for some tokens behind one that was refused. -/
structure Reader where
  text : Chars
  source : Option Chars := none
  sources : List (Chars × Chars) := []
  line : Nat := 1
  ahead : Option Token := none
  last : Token := .newline
  tokenLine : Nat := 0
  braces : Nat := 0
  parentheses : Nat := 0
  prints : Bool := false
  reads : Bool := false
  silent : Nat := 0
  loops : Nat := 0
  scope : Scope := .main
  kinds : Std.HashMap Chars Kind := {}
  functions : Std.HashMap Chars Signature := {}
  calls : List Call := []
  complaints : List Chars := []

/-- Why a reading is not followed by what comes next: a token was refused, or there is no more to
read. -/
inductive Halt where
  | refused
  | over

abbrev Read := ExceptT Halt (StateM Reader)

/-! ## Complaints -/

def maxComplaints : Nat := 5

def complainOf (text : Chars) : Read Unit := do
  modify fun r => { r with complaints := text :: r.complaints }
  if maxComplaints ≤ (← get).complaints.length then throw .over

def complain (text : Chars) : Read Unit := do
  let r ← get
  let file := r.source.elim [] fun name => name ++ str ": "
  complainOf (file ++ str "line " ++ Chars.ofNat r.tokenLine ++ str ": " ++ text)

def abort {α : Type} (text : Chars) : Read α := do
  complain text
  throw .over

/-! ## Tokens -/

/-- Goes on to the next source, if the present one has been read. -/
def nextSource : (sources : List (Chars × Chars)) → Read Unit
  | [] => return
  | (name, text) :: sources => do
    if (← get).text.isEmpty then
      modify fun r => { r with text := text, source := some name, sources := sources, line := 1 }
      nextSource sources
    else return

/-- Skips blanks and comments, and line feeds if they are meant too. -/
def skipSpace (feeds : Bool) : Read Unit := do
  let r ← get
  let (text, lines) := skipBlanks feeds (r.text.length + 1) r.text 0
  set { r with text := text, line := r.line + lines }
  nextSource r.sources

/-- Skips all that looks like blanks, line feeds too.  `fuel` bounds the sources. -/
def skipFeedsWithin : (fuel : Nat) → Read Unit
  | 0 => skipSpace true
  | fuel + 1 => do
    skipSpace true
    if (← get).sources.isEmpty then skipSpace true else skipFeedsWithin fuel

def complainOfStray (c : Char) : Read Unit := do
  let shown := if ' ' < c && c.toNat < 128 then ['\'', c, '\'']
    else str "0x" ++ Nat.toDigits 16 c.toNat
  complainOf (Chars.ofNat (← get).tokenLine ++ str ": unexpected character " ++ shown)

/-- Skips all that looks like blanks, line feeds too, and a backslash behind them. -/
def skipFeeds : Read Unit := do
  skipFeedsWithin (← get).sources.length
  let r ← get
  match r.text with
  | '\\' :: rest =>
    set { r with text := rest.dropWhile fun c => c != '\n' && Chars.isSpace c }
    complainOfStray '\\'
  | _ => return

/-- Drops a semicolon that comes next in the line. -/
def skipSemicolon : Read Unit := do
  let r ← get
  match r.text.dropWhile fun c => c != '\n' && Chars.isSpace c with
  | ';' :: rest => set { r with text := rest }
  | _ => return

def parameterNumber (name : Chars) : Read (Option (Chars × Nat)) := do
  match (← get).scope with
  | .function f parameters => return (parameters.findIdx? (·.1 == name)).map (f, ·)
  | _ => return none

def nameToken (name : Chars) : Read Token := do
  let word := String.ofList name
  let r ← get
  if words.contains word then return .word word
  else if name == str "NF" then return .count
  else if (builtins.lookup word).isSome then return .builtin word
  else if (← parameterNumber name).isSome then return .name name
  else if r.functions.contains name then return .function name
  else if r.text.head? == some '(' && !r.kinds.contains name then
    modify fun r => { r with functions := r.functions.insert name {} }
    return .function name
  else return .name name

/-- Goes on behind a token that is an operator; what follows some of them may be in another line. -/
def pass (op : String) (rest : Chars) : Read Token := do
  modify fun r => { r with text := rest }
  if ["\x7b", ";", ",", "&&", "||"].contains op then skipFeeds
  modify fun r => { r with
    braces := if op == "\x7b" then r.braces + 1 else r.braces
    parentheses := match op with
      | "(" => r.parentheses + 1
      | ")" => r.parentheses - 1
      | _ => r.parentheses }
  return .op op

def closingToken (rest : Chars) : Read Token := do
  let r ← get
  if r.last.isSeparator || r.last matches .op "\x7d" then
    set { r with text := rest, braces := r.braces - 1 }
    if r.braces = 1 then skipSemicolon
    skipFeeds
    return .op "\x7d"
  else return .closing

/-- The regular expression behind a slash. -/
def regexToken (rest : Chars) : Read Token := do
  match readPattern (rest.length + 1) none rest with
  | none => abort (str "runaway regular expression /" ++ shownLine rest ++ str " ...")
  | some (s, rest) =>
    modify fun r => { r with text := rest }
    match pattern s with
    | .ok regex => return .regex s (some regex)
    | .error fault =>
      complain fault
      return .regex s none

/-- The next token of the text.  `fuel` bounds those that are skipped with a complaint. -/
def cutToken : (fuel : Nat) → Read Token
  | 0 => return .ended
  | fuel + 1 => do
    skipSpace false
    modify fun r => { r with tokenLine := r.line }
    let r ← get
    let follow (t : Token) (rest : Chars) : Read Token := do
      set { r with text := rest }
      return t
    match r.text with
    | [] => return .ended
    | '\n' :: rest =>
      set { r with text := rest, line := r.line + 1 }
      skipFeeds
      return .newline
    | '"' :: rest =>
      match readText (rest.length + 1) rest with
      | none => abort (str "runaway string constant \"" ++ shownLine rest ++ str " ...")
      | some (s, after) =>
        let lines := (rest.take (rest.length - after.length)).count '\n'
        set { r with text := after, line := r.line + lines }
        return .text s
    | '\x7d' :: rest =>
      if r.braces = 0 then
        complain (str "extra '\x7d'")
        modify fun r => { r with text := rest }
        skipSemicolon
        cutToken fuel
      else closingToken rest
    | ')' :: rest =>
      if r.parentheses = 0 then
        complain (str "extra ')'")
        modify fun r => { r with text := rest }
        cutToken fuel
      else pass ")" rest
    | c :: rest =>
      if Chars.isNameStart c then
        let name := r.text.takeWhile Chars.isNameChar
        set { r with text := r.text.drop name.length }
        nameToken name
      else
        match readNumber r.text with
        | some (x, after) => follow (.number x (r.text.take (r.text.length - after.length))) after
        | none =>
          match r.last.slash, c with
          | .begins, '/' => regexToken rest
          | .bites, '/' => regexToken (if rest.head? == some '=' then rest else rest.drop 1)
          | _, _ =>
            let isSink := r.prints && r.parentheses = 0
            match operators.find? fun op => (str op).isPrefixOf r.text with
            | none => follow (.stray c) (if c == '.' then rest.drop 1 else rest)
            | some op =>
              if isSink && c == '>' then
                set { r with prints := false }
                if rest.head? == some '>' then
                  modify fun r => { r with text := rest.drop 1 }
                  return .sink .appended
                else
                  modify fun r => { r with text := rest }
                  return .sink .file
              else if isSink && op == "|" then
                set { r with prints := false, text := rest }
                return .sink .command
              else if r.reads && op == "<" then
                set { r with reads := false, text := rest }
                return .source
              else pass op (r.text.drop op.length)

def peek : Read Token := do
  match (← get).ahead with
  | some t => return t
  | none =>
    let t ← cutToken ((← get).text.length + 1)
    modify fun r => { r with ahead := some t, last := t }
    return t

def skip : Read Unit :=
  modify fun r => { r with ahead := none, silent := r.silent - 1 }

/-- Drops the token that is looked at, which is the rest of the one before it. -/
def skipRest : Read Unit :=
  modify fun r => { r with ahead := none }

/-- Refuses the next token; complains unless one was refused just before it. -/
def refuse {α : Type} : Read α := do
  let t ← peek
  let r ← get
  if r.silent = 0 then
    match t with
    | .stray c => complainOfStray c
    | t =>
      let mayClose := t.isSeparator || t matches .ended || t matches .op "\x7d"
      let mayEnd := t matches .ended || t matches .word "BEGIN" || t matches .word "END"
      if 0 < r.parentheses && mayClose then
        modify fun r => { r with parentheses := 0 }
        complain (str "missing ) near " ++ t.spelling)
      else if 0 < r.braces && mayEnd then
        modify fun r => { r with braces := 0 }
        complain (str "missing \x7d near " ++ t.spelling)
      else complain (str "syntax error at or near " ++ t.spelling)
  throw .refused

def isNext (op : String) : Read Bool := do
  match ← peek with
  | .op found => return found == op
  | _ => return false

def isWord (word : String) : Read Bool := do
  match ← peek with
  | .word found => return found == word
  | _ => return false

/-- Drops the next token if it is that operator. -/
def skipOp (op : String) : Read Bool := do
  if ← isNext op then
    skip
    return true
  else return false

/-- Drops an operator that has to come next. -/
def expect (op : String) : Read Unit := do
  if !(← skipOp op) then refuse

def expectName : Read Chars := do
  match ← peek with
  | .name n =>
    skip
    return n
  | _ => refuse

/-- Drops the end of a statement, which has to come next. -/
def expectSeparator : Read Unit := do
  if (← peek).isSeparator then skip else refuse

/-- Drops tokens up to the end of a statement, and that too.  `fuel` bounds them. -/
def leaveStatement : (fuel : Nat) → Read Unit
  | 0 => throw .over
  | fuel + 1 => do
    let t ← peek
    if t matches .ended then throw .over
    skip
    if t.isSeparator then
      modify fun r => { r with silent := 0, parentheses := 0, prints := false, reads := false }
    else leaveStatement fuel

/-! ## Kinds -/

def kindOf (name : Chars) : Read (Option Kind) := do
  let r ← get
  let local? := match r.scope with
    | .function _ parameters => parameters.lookup name
    | _ => none
  return local?.getD r.kinds[name]?

def Signature.withKind (s : Signature) (number : Nat) (k : Kind) : Signature :=
  let kinds := s.kinds ++ List.replicate (number + 1 - s.kinds.length) none
  { s with kinds := kinds.set number (some k) }

def setParameter (function : Chars) (number : Nat) (k : Kind) : Read Unit :=
  modify fun r =>
    let s := (r.functions[function]?).getD {}
    { r with functions := r.functions.insert function (s.withKind number k) }

def setKind (name : Chars) (k : Kind) : Read Unit := do
  match ← parameterNumber name with
  | some (f, i) =>
    setParameter f i k
    modify fun r =>
      match r.scope with
      | .function f parameters =>
        { r with scope := .function f (parameters.set i (name, some k)) }
      | _ => r
  | none => modify fun r => { r with kinds := r.kinds.insert name k }

def useAs (k : Kind) (name : Chars) : Read Unit := do
  match ← kindOf name with
  | none => setKind name k
  | some known =>
    if known ≠ k then
      let isLocal := (← parameterNumber name).isSome
      complain (str "illegal reference to " ++ str (if isLocal then "local " else "") ++
        str known.word ++ ' ' :: name)

/-! ## Calls -/

def Handed.kind? : Handed → Read (Option Kind)
  | known k => return some k
  | global name => return (← get).kinds[name]?
  | parameter f i => return ((((← get).functions[f]?).getD {}).kinds[i]?).getD none

def Handed.learn (k : Kind) : Handed → Read Unit
  | known _ => return
  | global name => modify fun r => { r with kinds := r.kinds.insert name k }
  | parameter f i => setParameter f i k

/-- Compares what a defined function is given with its parameters; each may teach the kind of the
other.  Gives what is left unknown, with the numbers of the parameters. -/
def compareGiven (call : Call) : List (Handed × Nat) → Read (List (Handed × Nat))
  | [] => return []
  | (given, i) :: rest => do
    let s := ((← get).functions[call.function]?).getD {}
    let wanted := (s.kinds[i]?).getD none
    match ← given.kind?, wanted with
    | none, none => return (given, i) :: (← compareGiven call rest)
    | none, some k =>
      given.learn k
      compareGiven call rest
    | some k, none =>
      setParameter call.function i k
      compareGiven call rest
    | some k, some k' =>
      if k ≠ k' then
        modify fun r => { r with tokenLine := call.line }
        complain (str "type error in arg(" ++ Chars.ofNat (i + 1) ++ str ") in call to " ++
          call.function ++ str " (actual local " ++ str k.word ++ str " vs local " ++
          str k'.word ++ [')'])
      compareGiven call rest

def fits (call : Call) (count : Nat) : Read Bool := do
  if count < call.handed.length then
    modify fun r => { r with tokenLine := call.line }
    complain (str "too many arguments in call to " ++ call.function)
    return false
  else return true

def addCall (call : Call) : Read Unit := do
  let s := ((← get).functions[call.function]?).getD {}
  match s.count with
  | some count =>
    if ← fits call count then
      if !(← compareGiven call call.handed.zipIdx).isEmpty then
        modify fun r => { r with calls := call :: r.calls }
  | none =>
    for (given, i) in call.handed.zipIdx do
      match ← given.kind? with
      | some k => if ((s.kinds[i]?).getD none).isNone then setParameter call.function i k
      | none => pure ()
    modify fun r => { r with calls := call :: r.calls }

/-- Compares calls again and again, as long as this teaches something.  `fuel` bounds the rounds. -/
def compareAll : (fuel : Nat) → List (Call × List (Handed × Nat)) → Read Unit
  | 0, _ => return
  | fuel + 1, calls => do
    let mut left := []
    let mut learned := false
    for (call, handed) in calls do
      let unknown ← compareGiven call handed
      if unknown.length < handed.length then learned := true
      if !unknown.isEmpty then left := left ++ [(call, unknown)]
    if learned then compareAll fuel left

/-- Settles the calls that are left at the end of the program. -/
def settleCalls : Read Unit := do
  let mut left := []
  let mut arguments := 0
  for call in (← get).calls do
    match ((← get).functions[call.function]?).bind Signature.count with
    | none => complain (str "function " ++ call.function ++ str " never defined")
    | some count =>
      if ← fits call count then
        left := left ++ [(call, call.handed.zipIdx)]
        arguments := arguments + call.handed.length
  compareAll (arguments + 1) left

end ProductLine.Shell.Record
