/- # Arithmetic — expressions on integers of 64 bits

An expression is evaluated while it is read, so what an assignment in it has
done stays done when a later part is faulty.  The extended dialect also
counts up and down, takes powers, reads numbers in any base, and evaluates
the values of variables in their turn.
-/
import ProductLine.Shell.Chars

namespace ProductLine.Shell

/-- What an expression consists of. -/
inductive ArithToken where
  | number (n : Int)
  | name (n : Chars)
  | op (text : String)
  | tooGreat
  | bad
deriving DecidableEq

/-- Why an expression has no value: a variable that has to be set is not, or something else in
words. -/
inductive ArithFault where
  | unset (name : Chars)
  | wording (text : Chars)

abbrev ArithPlace := ArithToken × Chars

namespace Arithmetic

def spelled (operators : List String) : List (String × Chars) :=
  operators.map fun op => (op, op.toList)

/-- The operators of both dialects, the longer ones first. -/
def plainOperators : List (String × Chars) :=
  spelled ["<<=", ">>=", "<<", ">>", "<=", ">=", "==", "!=", "&&", "||", "+=", "-=", "*=", "/=",
    "%=", "&=", "^=", "|=", "+", "-", "*", "/", "%", "<", ">", "!", "~", "&", "^", "|", "?", ":",
    "=", "(", ")"]

/-- The operators of the extended dialect, the longer ones first. -/
def extendedOperators : List (String × Chars) :=
  spelled ["**=", "++", "--", "**", ","] ++ plainOperators

/-- The operators of a dialect, the longer ones first. -/
def operators (extended : Bool) : List (String × Chars) :=
  if extended then extendedOperators else plainOperators

def maxNumber : Nat := 9223372036854775807

/-- The value of a digit in a base up to 64.  Where there are more than 36 digits, large letters are
others than small ones. -/
def digitInBase? (base : Nat) (c : Char) : Option Nat :=
  if base ≤ 36 then Chars.digitValue? c
  else if 'A' ≤ c && c ≤ 'Z' then some (c.toNat - 'A'.toNat + 36)
  else if c == '@' then some 62
  else if c == '_' then some 63
  else Chars.digitValue? c

/-- The digits of a base up to 64 at the front, as a number and how many there are. -/
def numberInBase (base : Nat) : Chars → (value count : Nat) → Nat × Nat
  | [], value, count => (value, count)
  | c :: rest, value, count =>
    match digitInBase? base c with
    | some d =>
      if d < base then numberInBase base rest (value * base + d) (count + 1) else (value, count)
    | none => (value, count)

/-- The number at the front, in the base that its spelling says, and what follows.  One that is too
large loses bits in the extended dialect, and is the largest one otherwise. -/
def readNumber (extended : Bool) (text : Chars) : Int × Chars :=
  let inBase (base : Nat) (digits : Chars) : Int × Chars :=
    let (value, count) := Chars.leadingNumber base digits 0 0
    (if extended then Chars.wrap value else Int.ofNat (min value maxNumber), digits.drop count)
  match text with
  | '0' :: x :: digits =>
    if (x == 'x' || x == 'X') &&
        (digits.head?.bind Chars.digitValue?).any (· < 16) then inBase 16 digits
    else inBase 8 text
  | _ =>
    let shown := text.takeWhile Char.isDigit
    match text.drop shown.length with
    | '#' :: digits =>
      if !extended then inBase 10 text
      else
        let base := Chars.digitsValue shown
        let (value, count) := numberInBase base digits 0 0
        (Chars.wrap value, digits.drop count)
    | _ => inBase 10 text

def tokens (extended : Bool) : (fuel : Nat) → Chars → List ArithPlace
  | 0, _ => []
  | fuel + 1, text =>
    let text := text.dropWhile Chars.isSpace
    match text with
    | [] => []
    | c :: _ =>
      if c.isDigit then
        let (n, rest) := readNumber extended text
        if extended && rest.head?.any Chars.isNameChar then [(.tooGreat, text)]
        else (.number n, text) :: tokens extended fuel rest
      else if Chars.isNameStart c then
        let name := text.takeWhile Chars.isNameChar
        (.name name, text) :: tokens extended fuel (text.drop name.length)
      else
        match (operators extended).find? fun op => op.2.isPrefixOf text with
        | some (op, spelling) => (.op op, text) :: tokens extended fuel (text.drop spelling.length)
        | none => [(.bad, text)]

/-- What is left of an expression and the text from the latest token on, the values of variables and
whether they have to be set, which of them have items whose keys are texts, and those that were
assigned, the latest first. -/
structure State where
  extended : Bool
  source : Chars
  places : List ArithPlace
  latest : Chars := []
  value? : Chars → Option Chars
  demands : Bool
  isKeyed : Chars → Bool
  assigned : List (Chars × Chars) := []

/-- A step of evaluation, or the complaint that ends it. -/
abbrev Eval := ExceptT ArithFault (StateM State)

@[inline] def peek : Eval (Option ArithToken) := do
  return (← get).places.head?.map Prod.fst

@[inline] def skip : Eval Unit :=
  modify fun s => { s with
    places := s.places.drop 1, latest := (s.places.head?.map Prod.snd).getD s.latest }

@[inline] def isNext (op : String) : Eval Bool := do
  return (← peek) == some (.op op)

/-- Ends the evaluation with a complaint: in one dialect `posix`, in the other one `other` with
the text from the present token on. -/
def complain {α : Type} (posix other : String) : Eval α := do
  let s ← get
  if s.extended then
    let here := (s.places.head?.map Prod.snd).getD s.latest
    throw (.wording (s.source ++ str ": " ++ str other ++ str " (error token is \"" ++ here ++
      ['"', ')']))
  else
    throw (.wording (str "arithmetic expression: " ++ str posix ++ str ": \"" ++ s.source ++ ['"']))

def lookup (name : Chars) : Eval Chars := do
  let s ← get
  match s.assigned.lookup name with
  | some value => return value
  | none =>
    match s.value? name with
    | some value => return value
    | none => if s.demands then throw (.unset name) else return []

/-- The number that a text spells by itself, with blanks around it. -/
def plainNumber? (extended : Bool) (text : Chars) : Option Int :=
  let body := text.dropWhile Chars.isSpace
  let (negative, body) := match body with
    | '-' :: rest => (true, rest)
    | '+' :: rest => (false, rest)
    | rest => (false, rest)
  if body.isEmpty then (if text.all Chars.isSpace then some 0 else none)
  else if !(body.head?.any Char.isDigit) then none
  else
    let (n, rest) := readNumber extended body
    let isLargest := n == Int.ofNat maxNumber &&
      body.takeWhile Chars.isNameChar != Chars.ofNat maxNumber
    if !rest.all Chars.isSpace then none
    else if extended || !isLargest then some (if negative then -n else n)
    else
      let digits := body.takeWhile Char.isDigit
      if negative && Chars.digitsValue digits == maxNumber + 1 then some (-n - 1) else none

def assign (name : Chars) (n : Int) : Eval Int := do
  let n := Chars.wrap n
  modify fun s => { s with assigned := (name, Chars.ofInt n) :: s.assigned }
  return n

def truth (b : Bool) : Int := if b then 1 else 0

def bits (n : Int) : BitVec 64 := BitVec.ofInt 64 n

/-- The value of an operator between two numbers. -/
def binary (op : String) (a b : Int) : Eval Int :=
  let shift := (bits b).toNat % 64
  match op with
  | "+" => pure (Chars.wrap (a + b))
  | "-" => pure (Chars.wrap (a - b))
  | "*" => pure (Chars.wrap (a * b))
  | "/" => if b = 0 then complain "division by zero" "division by 0"
      else pure (Chars.wrap (Int.tdiv a b))
  | "%" => if b = 0 then complain "division by zero" "division by 0"
      else pure (Int.tmod a b)
  | "**" => if b < 0 then complain "" "exponent less than 0"
      else pure (Chars.wrap (Int.pow a b.toNat))
  | "<<" => pure ((bits a <<< shift).toInt)
  | ">>" => pure (((bits a).sshiftRight shift).toInt)
  | "<" => pure (truth (a < b))
  | "<=" => pure (truth (a ≤ b))
  | ">" => pure (truth (b < a))
  | ">=" => pure (truth (b ≤ a))
  | "==" => pure (truth (a = b))
  | "!=" => pure (truth (a ≠ b))
  | "&" => pure ((bits a &&& bits b).toInt)
  | "^" => pure ((bits a ^^^ bits b).toInt)
  | "|" => pure ((bits a ||| bits b).toInt)
  | _ => pure (b)

/-- The operators between two operands by precedence in both dialects, those that bind least
first. -/
def plainLevels : List (List String) :=
  [["|"], ["^"], ["&"], ["==", "!="], ["<", "<=", ">", ">="], ["<<", ">>"], ["+", "-"],
    ["*", "/", "%"]]

/-- The operators between two operands by precedence in the extended dialect. -/
def extendedLevels : List (List String) := plainLevels ++ [["**"]]

/-- The operators between two operands by precedence in a dialect. -/
def levels (extended : Bool) : List (List String) :=
  if extended then extendedLevels else plainLevels

/-- The operators that assign what another operator makes of the old value. -/
def assignments : List (String × String) :=
  [("+=", "+"), ("-=", "-"), ("*=", "*"), ("/=", "/"), ("%=", "%"), ("<<=", "<<"), (">>=", ">>"),
    ("&=", "&"), ("^=", "^"), ("|=", "|"), ("**=", "**")]

/-- The readers of an expression of some depth: for the value of a variable in the extended
dialect, and for a whole expression; the flag says that it is read without being evaluated. -/
structure Inner where
  text : Chars → Eval Int
  whole : Bool → Eval Int

def valueOf (inner : Inner) (name : Chars) : Eval Int := do
  let text ← lookup name
  let extended := (← get).extended
  match plainNumber? extended text with
  | some n => return n
  | none =>
    if extended then inner.text text
    else throw (.wording (str "Illegal number: " ++ text))

/-- An index, behind the bracket that opens it, and what follows the one that closes it. -/
def splitIndex : (depth : Nat) → Chars → Chars × Chars
  | _, [] => ([], [])
  | 0, ']' :: rest => ([], rest)
  | depth, c :: rest =>
    let depth := if c == '[' then depth + 1 else if c == ']' then depth - 1 else depth
    let (index, after) := splitIndex depth rest
    (c :: index, after)

/-- A key without the quotation marks around it. -/
def bareKey (text : Chars) : Chars :=
  match text with
  | q :: rest =>
    if (q == '\'' || q == '"') && rest.getLast? == some q then rest.dropLast else text
  | [] => []

/-- The name of a variable, with the index of an array in the extended dialect. -/
def reference (inner : Inner) (silent : Bool) (name : Chars) : Eval Chars := do
  let s ← get
  match s.extended, s.places with
  | true, (.bad, '[' :: rest) :: _ =>
    let (index, after) := splitIndex 0 rest
    set { s with places := tokens true (after.length + 1) after }
    if s.isKeyed name then return name ++ '[' :: bareKey index ++ [']']
    let n ← if silent then pure 0 else inner.text index
    return name ++ '[' :: Chars.ofInt n ++ [']']
  | _, _ => return name

/-- An operand: a number, a variable, or an expression in parentheses. -/
def operand (inner : Inner) (silent : Bool) : Eval Int := do
  match ← peek with
  | some (.number n) =>
    skip
    return n
  | some (.name name) =>
    skip
    let name ← reference inner silent name
    match ← peek with
    | some (.op op) =>
      let extended := (← get).extended
      if extended && (op == "++" || op == "--") then
        skip
        if silent then return 0
        else
          let old ← valueOf inner name
          let _ ← assign name (if op == "++" then old + 1 else old - 1)
          return old
      else if silent then return 0 else valueOf inner name
    | _ => if silent then return 0 else valueOf inner name
  | some (.op "(") =>
    skip
    let n ← inner.whole silent
    if ← isNext ")" then
      skip
      return n
    else complain "expecting ')'" "missing \x60)'"
  | some .tooGreat => complain "expecting primary" "value too great for base"
  | _ => complain "expecting primary" "syntax error: operand expected"

def unary (inner : Inner) (silent : Bool) : (fuel : Nat) → Eval Int
  | 0 => complain "expecting primary" "expression recursion level exceeded"
  | fuel + 1 => do
    match ← peek with
    | some (.op op) =>
      match op with
      | "-" =>
        skip
        return Chars.wrap (-(← unary inner silent fuel))
      | "+" =>
        skip
        unary inner silent fuel
      | "!" =>
        skip
        return truth ((← unary inner silent fuel) == 0)
      | "~" =>
        skip
        return -(← unary inner silent fuel) - 1
      | "++" | "--" =>
        skip
        match ← peek with
        | some (.name name) =>
          skip
          let name ← reference inner silent name
          if silent then return 0
          else
            let old ← valueOf inner name
            assign name (if op == "++" then old + 1 else old - 1)
        | _ => unary inner silent fuel
      | _ => operand inner silent
    | _ => operand inner silent

/-- The level of an operator between two operands: the higher it is, the more the operator binds. -/
def levelOf? (extended : Bool) (op : String) : Option Nat :=
  (levels extended).findIdx? (·.contains op)

/-- A value with what follows it by way of operators of a level or a higher one.  What is right of
an operator takes in those that bind more, and powers also those that bind as much. -/
def joined (inner : Inner) (silent : Bool) : (fuel : Nat) → (level : Nat) → Int → Eval Int
  | 0, _, left => return left
  | fuel + 1, level, left => do
    let s ← get
    match s.places with
    | (.op op, _) :: behind =>
      match levelOf? s.extended op with
      | none => return left
      | some own =>
        if own < level then return left
        else
          skip
          let first ← unary inner silent fuel
          let right ← joined inner silent fuel (if op == "**" then own else own + 1) first
          if silent then joined inner silent fuel level 0
          else
            let after := (← get).places
            if right == 0 && (op == "/" || op == "%") then
              modify fun s => { s with places := behind }
            let value ← binary op left right
            modify fun s => { s with places := after }
            joined inner silent fuel level value
    | _ => return left

/-- Operands joined by `&&`; one that is not needed is read in silence. -/
def conjunction (inner : Inner) : (fuel : Nat) → (silent : Bool) → Eval Int
  | 0, _ => return 0
  | fuel + 1, silent => do
    let first ← joined inner silent fuel 0 (← unary inner silent fuel)
    if ← isNext "&&" then
      skip
      let second ← conjunction inner fuel (silent || first == 0)
      return truth (first != 0 && second != 0)
    else return first

/-- Operands joined by `||`; one that is not needed is read in silence. -/
def disjunction (inner : Inner) : (fuel : Nat) → (silent : Bool) → Eval Int
  | 0, _ => return 0
  | fuel + 1, silent => do
    let first ← conjunction inner (fuel + 1) silent
    if ← isNext "||" then
      skip
      let second ← disjunction inner fuel (silent || first != 0)
      return truth (first != 0 || second != 0)
    else return first

/-- Ends the evaluation if a branch of a choice is missing, which the extended dialect says. -/
def demandBranch (isMissing : Bool) : Eval Unit := do
  if isMissing && (← get).extended then complain "expecting primary" "expression expected"

def choice (inner : Inner) : (fuel : Nat) → (silent : Bool) → Eval Int
  | 0, _ => return 0
  | fuel + 1, silent => do
    let test ← disjunction inner (fuel + 1) silent
    if ← isNext "?" then
      skip
      let next ← peek
      demandBranch (next.isNone || next == some (.op ":"))
      let yes ← inner.whole (silent || test == 0)
      if ← isNext ":" then
        skip
        demandBranch (← peek).isNone
        let no ← choice inner fuel (silent || test != 0)
        return if test != 0 then yes else no
      else complain "expecting ':'" "\x60:' expected for conditional expression"
    else return test

/-- A value that is no assignment; the extended dialect complains of one that is given another
value. -/
def plainValue (inner : Inner) (fuel : Nat) (silent : Bool) : Eval Int := do
  let n ← choice inner fuel silent
  match ← peek with
  | some (.op op) =>
    let assigns := op == "=" || (assignments.lookup op).isSome
    if assigns && (← get).extended then
      complain "expecting EOF" "attempted assignment to non-variable"
    else return n
  | _ => return n

/-- An assignment, or a value.  In the extended dialect the old value is looked up before what is
computed with it, and in the other one behind that. -/
def assignment (inner : Inner) : (fuel : Nat) → (silent : Bool) → Eval Int
  | 0, _ => complain "expecting primary" "expression recursion level exceeded"
  | fuel + 1, silent => do
    let s ← get
    match s.places with
    | (.name name, text) :: rest =>
      set { s with places := rest, latest := text }
      let _ ← reference inner true name
      match ← peek with
      | some (.op op) =>
        if op == "=" then
          skip
          let n ← assignment inner fuel silent
          if silent then return n
          else
            let after ← get
            set { after with places := rest }
            let name ← reference inner false name
            modify fun s => { s with places := after.places, latest := after.latest }
            assign name n
        else
          match assignments.lookup op with
          | some op =>
            let behind ← get
            set { behind with places := rest }
            let name ← reference inner silent name
            let early ← if behind.extended && !silent then valueOf inner name else pure 0
            modify fun s => { s with places := behind.places, latest := behind.latest }
            skip
            let n ← assignment inner fuel silent
            if silent then return n
            else
              let old ← if behind.extended then pure early else valueOf inner name
              assign name (← binary op old n)
          | none =>
            set s
            plainValue inner (fuel + 1) silent
      | _ =>
        set s
        plainValue inner (fuel + 1) silent
    | _ => plainValue inner (fuel + 1) silent

/-- Expressions one after the other, of which the last one counts. -/
def sequence (inner : Inner) : (fuel : Nat) → (silent : Bool) → Eval Int
  | 0, _ => return 0
  | fuel + 1, silent => do
    let first ← assignment inner (fuel + 1) silent
    if (← get).extended && (← isNext ",") then
      skip
      sequence inner fuel silent
    else return first

def expression : (depth : Nat) → (silent : Bool) → Eval Int
  | 0, _ => complain "expecting primary" "expression recursion level exceeded"
  | depth + 1, silent => do
    let inner : Inner :=
      { whole := expression depth
        text := fun text => do
          let outer ← get
          set { outer with source := text, places := tokens outer.extended (text.length + 1) text }
          let n ← if text.all Chars.isSpace then pure 0 else expression depth false
          if !(← get).places.isEmpty then
            complain "expecting EOF" "syntax error in expression"
          modify fun s => { s with source := outer.source, places := outer.places }
          return n }
    sequence inner ((← get).places.length + 4) silent

/-- The value of a text, which has to be one expression; an empty text is zero in the extended
dialect. -/
def whole : Eval Int := do
  let s ← get
  if s.extended && s.places.isEmpty then return 0
  else
    let n ← expression 200 false
    if (← get).places.isEmpty then return n
    else complain "expecting EOF" "syntax error in expression"

/-- The value of an expression, or the complaint about it, and what was assigned on the way, the
earliest first. -/
def evaluate (extended demands : Bool) (value? : Chars → Option Chars) (isKeyed : Chars → Bool)
    (source : Chars) : Except ArithFault Int × List (Chars × Chars) :=
  let start : State :=
    { extended := extended
      source := if extended then source.dropWhile Chars.isSpace else source
      places := tokens extended (source.length + 1) source, value? := value?
      demands := demands, isKeyed := isKeyed }
  let (result, state) := whole.run.run start
  (result, state.assigned.reverse)

end Arithmetic

end ProductLine.Shell
