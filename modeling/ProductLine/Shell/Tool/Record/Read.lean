/- # Reading programs of `awk` — the grammar

Two operands side by side are joined.  Only what stands where an expression
begins can be assigned to; operators bind from the left, but for powers,
choices and assignments.
-/
import ProductLine.Shell.Tool.Record.Reader

namespace ProductLine.Shell.Record

/-! ## Expressions -/

/-- What reads expressions and statements inside of others.  An expression has only operators of at
least the given rank outside of parentheses; the first operand of one may have been read. -/
structure Inner where
  expr : (least : Nat) → Read Expr
  exprFrom : Expr → Read Expr
  statement : Read Statement

/-- The expression is a field, perhaps in parentheses. -/
def isField : Expr → Bool
  | .field _ => true
  | .group e => isField e
  | .name ['N', 'F'] => true
  | _ => false

def isTarget (e : Expr) : Bool :=
  match e with
  | .name _ | .item .. => true
  | e => isField e

def inside : Expr → Expr
  | .group e => inside e
  | e => e

/-- Complains about a text that is meant as a regular expression, and is none.  A `literal` may be a
character that stands for itself. -/
def checkPattern (literal : Bool) (e : Expr) : Read Unit := do
  match inside e with
  | .text s =>
    if !(literal && s.length ≤ 1) then
      match pattern s with
      | .ok _ => return
      | .error fault => complain fault
  | _ => return

/-- Expressions between commas.  `fuel` bounds them. -/
def exprList (inner : Inner) : (fuel : Nat) → Read (List Expr)
  | 0 => return []
  | fuel + 1 => do
    let first ← inner.expr 0
    if ← skipOp "," then return first :: (← exprList inner fuel) else return [first]

/-- So many expressions may still follow each other. -/
def bound : Read Nat := do
  return (← get).text.length + 2

/-- The arguments of a function that every program has, up to the closing parenthesis. -/
def arguments (inner : Inner) : Read (List Expr) := do
  if ← skipOp ")" then return []
  else
    let list ← exprList inner (← bound)
    expect ")"
    return list

/-- The index of an item, of which the opening bracket has been read. -/
def indexOf (inner : Inner) : Read (List Expr) := do
  let list ← exprList inner (← bound)
  expect "]"
  return list

/-- What a name that has been read stands for: a variable, or an item. -/
def named (inner : Inner) (name : Chars) : Read Expr := do
  if ← skipOp "[" then
    let index ← indexOf inner
    useAs .array name
    return .item name index
  else
    useAs .scalar name
    return .name name

def arrayName : Read Chars := do
  let n ← expectName
  useAs .array n
  return n

/-- The question whether an array has an item, of which the index has been read. -/
def membership (index : List Expr) : Read Expr := do
  if !(← isWord "in") then refuse
  skip
  return .contains index (← arrayName)

def stepped (e : Expr) : Read Expr := do
  if !isTarget e then return e
  else if ← skipOp "++" then return .step false true (inside e)
  else if ← skipOp "--" then return .step false false (inside e)
  else return e

/-- The field whose number comes next; `operand` reads one that is no name and no digits. -/
def fieldOf (inner : Inner) (operand : Read Expr) : Read Expr := do
  match ← peek with
  | .name n =>
    skip
    return .field (← named inner n)
  | .number x _ =>
    skipRest
    return .field (.number x)
  | _ => return .field (← operand)

/-- A field in parentheses, of which the first has been read.  `fuel` bounds the parentheses. -/
def groupedField (inner : Inner) (operand : Read Expr) : (fuel : Nat) → Read Expr
  | 0 => refuse
  | fuel + 1 => do
    let e ← match ← peek with
      | .op "$" => do
        skip
        fieldOf inner operand
      | .op "(" => do
        skip
        groupedField inner operand fuel
      | .count => do
        skip
        pure (.name (str "NF"))
      | _ => refuse
    expect ")"
    return e

def target? (inner : Inner) (operand : Read Expr) : Read (Option Expr) := do
  match ← peek with
  | .name n =>
    skip
    return some (← named inner n)
  | .count =>
    skip
    return some (.name (str "NF"))
  | .op "$" =>
    skip
    return some (← fieldOf inner operand)
  | .op "(" =>
    skip
    return some (← groupedField inner operand (← bound))
  | _ => return none

def target (inner : Inner) (operand : Read Expr) : Read Expr := do
  match ← target? inner operand with
  | some e => return e
  | none => refuse

/-- What a function of the program is given, up to the closing parenthesis.  `fuel` bounds the
arguments. -/
def handedOver (inner : Inner) : (fuel : Nat) → Read (List (Expr × Handed))
  | 0 => refuse
  | fuel + 1 => do
    let first : Expr × Handed ← match ← peek with
      | .name n => do
        skip
        let isAlone := (← isNext ",") || (← isNext ")")
        if isAlone then
          let handed ← match ← parameterNumber n with
            | some (f, i) => pure (.parameter f i)
            | none => pure (.global n)
          match ← kindOf n with
          | some k => pure (.name n, .known k)
          | none => pure (.name n, handed)
        else pure (← inner.exprFrom (← named inner n), .known .scalar)
      | _ => do pure (← inner.expr 0, .known .scalar)
    if ← skipOp "," then return first :: (← handedOver inner fuel)
    else
      expect ")"
      return [first]

/-- A call of a function of the program, of which the name has been read. -/
def calling (inner : Inner) (name : Chars) : Read Expr := do
  expect "("
  let line := (← get).tokenLine
  let list ← if ← skipOp ")" then pure [] else handedOver inner (← bound)
  addCall { function := name, handed := list.map Prod.snd, line := line }
  return .call name (list.map Prod.fst)

/-- A call of a function that every program has, of which the name has been read. -/
def builtinCall (inner : Inner) (operand : Read Expr) (name : String) : Read Expr := do
  match name with
  | "length" =>
    if ← skipOp "(" then
      if ← skipOp ")" then return .builtin name []
      else
        match ← peek with
        | .name n =>
          skip
          if ← skipOp ")" then return .builtin name [.name n]
          else
            let e ← inner.exprFrom (← named inner n)
            expect ")"
            return .builtin name [e]
        | _ =>
          let e ← inner.expr 0
          expect ")"
          return .builtin name [e]
    else return .builtin name []
  | "split" =>
    expect "("
    let text ← inner.expr 0
    expect ","
    let array ← arrayName
    if ← skipOp "," then
      let separator ← inner.expr 0
      expect ")"
      checkPattern true separator
      return .builtin name [text, .name array, separator]
    else
      expect ")"
      return .builtin name [text, .name array]
  | "match" =>
    expect "("
    let text ← inner.expr 0
    expect ","
    let p ← inner.expr 0
    checkPattern false p
    expect ")"
    return .builtin name [text, p]
  | "sub" | "gsub" =>
    expect "("
    let p ← inner.expr 0
    checkPattern false p
    expect ","
    let new ← inner.expr 0
    if ← skipOp "," then
      let place ← target inner operand
      expect ")"
      return .builtin name [p, new, place]
    else
      expect ")"
      return .builtin name [p, new]
  | name =>
    expect "("
    let list ← arguments inner
    match (builtins.lookup name).join with
    | some (least, most) =>
      if list.length < least || most < list.length then
        complain (str "wrong number of arguments in call to " ++ str name)
    | none => pure ()
    return .builtin name list

def arithmeticOperators : List (String × Nat × Operation) :=
  [("+", 1, .sum), ("-", 1, .difference), ("*", 2, .product), ("/", 2, .quotient),
    ("%", 2, .remainder), ("^", 5, .power)]

def signRank : Nat := 3

/-- The rank of the sign between a command and what reads its output. -/
def pipeRank : Nat := 4

def powerRank : Nat := 5

/-- Operators of arithmetic behind an operand.  `term` reads an operand with operators of at least a
rank.  `fuel` bounds them. -/
def arithmeticAfter (inner : Inner) (term : Nat → Read Expr) (least : Nat) :
    (fuel : Nat) → Expr → Read Expr
  | 0, left => return left
  | fuel + 1, left => do
    match ← peek with
    | .op "|" =>
      if pipeRank < least then return left
      else
        skip
        if !(← isWord "getline") then refuse
        skip
        let place ← target? inner (term signRank)
        arithmeticAfter inner term least fuel (.getline .command (some left) place)
    | .op op =>
      match arithmeticOperators.lookup op with
      | none => return left
      | some (rank, operation) =>
        if rank < least then return left
        else
          skip
          let right ← term (if rank = powerRank then rank else rank + 1)
          arithmeticAfter inner term least fuel (.arithmetic operation left right)
    | _ => return left

/-- An operand without operators behind it; `term` reads one with operators of at least a rank. -/
def primary (inner : Inner) (term : Nat → Read Expr) : Read Expr := do
  match ← peek with
  | .number x _ =>
    skip
    return .number x
  | .text s =>
    skip
    return .text s
  | .regex _ r =>
    skip
    return r.elim (.text []) .regex
  | .name n =>
    skip
    named inner n
  | .count =>
    skip
    return .name (str "NF")
  | .function n =>
    skip
    calling inner n
  | .builtin n =>
    skip
    builtinCall inner (term signRank) n
  | .op "$" =>
    skip
    fieldOf inner (term (powerRank + 1))
  | .op "++" =>
    skip
    return .step true true (← target inner (term (powerRank + 1)))
  | .op "--" =>
    skip
    return .step true false (← target inner (term (powerRank + 1)))
  | .op "(" =>
    skip
    let e ← inner.expr 0
    expect ")"
    return .group e
  | .word "getline" =>
    skip
    modify fun r => { r with reads := true }
    let place ← target? inner (term (powerRank + 1))
    if (← peek) matches .source then
      skip
      return .getline .file (some (← term powerRank)) place
    else
      modify fun r => { r with reads := false }
      return .getline .inputs none place
  | _ => refuse

/-- An operand with operators of at least a rank, signs in front and steps behind it.  `fuel` bounds
the nesting outside of parentheses. -/
def term (inner : Inner) : (fuel least : Nat) → Read Expr
  | 0, _ => refuse
  | fuel + 1, least => do
    let below := term inner fuel
    let n ← bound
    let first ← if ← skipOp "!" then pure (.not (← below (signRank + 1)))
      else if ← skipOp "-" then pure (.negative (← below (signRank + 1)))
      else if ← skipOp "+" then pure (.positive (← below (signRank + 1)))
      else stepped (← primary inner below)
    arithmeticAfter inner below least n first

/-- An operand begins here that is joined to what stands before it. -/
def beginsOperand : Read Bool := do
  match ← peek with
  | .number .. | .text _ | .regex .. | .name _ | .function _ | .builtin _ | .count => return true
  | .op op => return ["$", "(", "++", "--", "!"].contains op
  | .word word => return word == "getline"
  | _ => return false

def joinedAfter (inner : Inner) : (fuel : Nat) → Expr → Read Expr
  | 0, left => return left
  | fuel + 1, left => do
    if ← beginsOperand then joinedAfter inner fuel (.joined left (← term inner (← bound) 0))
    else return left

/-- The operators of conditions that compare, with their relations. -/
def relations : List (String × Relation) :=
  [("<", .less), ("<=", .atMost), ("==", .equal), ("!=", .unequal), (">", .greater),
    (">=", .atLeast)]

/-- The rank of an operator that stands between expressions: choices, alternatives, conjunctions,
memberships, matches, and comparisons. -/
def conditionRank? (t : Token) : Option Nat :=
  match t with
  | .op op =>
    [("?", 1), ("||", 2), ("&&", 3), ("~", 5), ("!~", 5)].lookup op <|>
      (relations.lookup op).map fun _ => 6
  | .word "in" => some 4
  | _ => none

/-- Operators of at least a rank behind an expression.  `fuel` bounds them. -/
def operatorsAfter (inner : Inner) (least : Nat) : (fuel : Nat) → Expr → Read Expr
  | 0, left => return left
  | fuel + 1, left => do
    let t ← peek
    match conditionRank? t with
    | none => return left
    | some rank =>
      if rank < least then return left
      else
        skip
        let e ← match t with
          | .op "?" => do
            let yes ← inner.expr 0
            expect ":"
            pure (.choice left yes (← inner.expr rank))
          | .op "||" => do pure (.either left (← inner.expr (rank + 1)))
          | .op "&&" => do pure (.both left (← inner.expr (rank + 1)))
          | .op op => do
            let right ← inner.expr (rank + 1)
            match relations.lookup op with
            | some relation => pure (.comparison relation left right)
            | none =>
              checkPattern false right
              pure (.matching (op == "!~") left right)
          | _ => do pure (.contains [left] (← arrayName))
        operatorsAfter inner least fuel e

/-- The operators that assign, with the one that each applies before. -/
def assignments : List (String × Option Operation) :=
  [("=", none), ("+=", some .sum), ("-=", some .difference), ("*=", some .product),
    ("/=", some .quotient), ("%=", some .remainder), ("^=", some .power)]

/-- An expression of which the first operand has been read, without steps behind it. -/
def exprFrom (inner : Inner) (least : Nat) (first : Expr) : Read Expr := do
  let assignment? ← match ← peek with
    | .op op => pure (if isTarget first then assignments.lookup op else none)
    | _ => pure none
  match assignment? with
  | some op =>
    skip
    return .assign (inside first) op (← inner.expr 0)
  | none =>
    let n ← bound
    let left ← arithmeticAfter inner (term inner n) 0 n (← stepped first)
    operatorsAfter inner least n (← joinedAfter inner n left)

def expr (inner : Inner) (least : Nat) : Read Expr := do
  let n ← bound
  match ← peek with
  | .op "(" =>
    skip
    let e ← inner.expr 0
    if ← skipOp "," then
      let index := e :: (← exprList inner n)
      expect ")"
      operatorsAfter inner least n (← membership index)
    else
      expect ")"
      exprFrom inner least (.group e)
  | .op op =>
    if ["!", "-", "+"].contains op then
      operatorsAfter inner least n (← joinedAfter inner n (← term inner n 0))
    else exprFrom inner least (← primary inner (term inner n))
  | _ => exprFrom inner least (← primary inner (term inner n))

/-! ## Statements -/

def block (inner : Inner) : Read Statement := do
  let rec statements : (fuel : Nat) → Read (List Statement)
    | 0 => refuse
    | fuel + 1 => do
      if ← skipOp "\x7d" then return []
      else return (← inner.statement) :: (← statements fuel)
  expect "\x7b"
  return .block (← statements (← bound))

def printed (inner : Inner) : Read (List Expr) := do
  let n ← bound
  let listFrom (first : Expr) : Read (List Expr) := do
    if ← skipOp "," then return first :: (← exprList inner n) else return [first]
  match ← peek with
  | .op "(" =>
    skip
    if ← skipOp ")" then return []
    else
      let first ← inner.expr 0
      if ← skipOp "," then
        let list := first :: (← exprList inner n)
        expect ")"
        if ← isWord "in" then listFrom (← operatorsAfter inner 0 n (← membership list))
        else return list
      else
        expect ")"
        listFrom (← inner.exprFrom (.group first))
  | t => if t.isSeparator || t matches .sink _ then return [] else exprList inner n

/-- The statement `print` or `printf`, of which the word has been read. -/
def printing (inner : Inner) (formatted : Bool) : Read Statement := do
  modify fun r => { r with prints := true }
  let items ← printed inner
  let sink ← match ← peek with
    | .sink s => do
      skip
      pure (some (s, ← inner.expr 0))
    | _ => pure none
  expectSeparator
  modify fun r => { r with prints := false }
  if formatted && items.isEmpty then complain (str "no arguments in call to printf")
  return .print formatted items sink

/-- A condition in parentheses, behind which line feeds have no meaning. -/
def condition (inner : Inner) : Read Expr := do
  expect "("
  let test ← inner.expr 0
  expect ")"
  skipFeeds
  return test

def loopBody (inner : Inner) : Read Statement := do
  modify fun r => { r with loops := r.loops + 1 }
  let s ← inner.statement
  modify fun r => { r with loops := r.loops - 1 }
  return s

def recover : Halt → Read Statement
  | .over => throw .over
  | .refused => do
    modify fun r => { r with silent := 3 }
    leaveStatement (← bound)
    return .block []

/-- The end of a loop whose condition stands behind its body.  If it is refused, what follows it takes
the place of the body.  `fuel` bounds this. -/
def loopEnd (inner : Inner) : (fuel : Nat) → Statement → Read Statement
  | 0, _ => refuse
  | fuel + 1, body => do
    let test? ← try
        if !(← isWord "while") then refuse
        skip
        expect "("
        let test ← inner.expr 0
        expect ")"
        expectSeparator
        pure (some test)
      catch halt => do
        let _ ← recover halt
        pure none
    match test? with
    | some test => return .loopAfter body test
    | none => loopEnd inner fuel (.block [])

def expectSemicolon : Read Unit := do
  if (← peek) matches .closing then skip else expect ";"

/-- A loop that begins with the word `for`, which has been read. -/
def forLoop (inner : Inner) : Read Statement := do
  let steps (start : Option Expr) : Read Statement := do
    expectSemicolon
    let test ← if (← peek).isSeparator then pure none else some <$> inner.expr 0
    expectSemicolon
    let next ← if ← isNext ")" then pure none else some <$> inner.expr 0
    expect ")"
    skipFeeds
    return .loopSteps (start.map .expression) test (next.map .expression) (← loopBody inner)
  expect "("
  match ← peek with
  | .name n =>
    skip
    if ← isWord "in" then
      skip
      let array ← expectName
      expect ")"
      skipFeeds
      useAs .scalar n
      useAs .array array
      return .loopOver n array (← loopBody inner)
    else steps (some (← inner.exprFrom (← named inner n)))
  | t => if t.isSeparator then steps none else steps (some (← inner.expr 0))

def wordStatement (inner : Inner) (word : String) : Read Statement := do
  let optional : Read (Option Expr) := do
    if (← peek).isSeparator then return none else return some (← inner.expr 0)
  match word with
  | "print" => printing inner false
  | "printf" => printing inner true
  | "next" | "nextfile" =>
    expectSeparator
    if !((← get).scope matches .main) then complain (str "improper use of " ++ str word)
    return if word == "next" then .next else .nextFile
  | "break" | "continue" =>
    expectSeparator
    let r ← get
    if r.loops = 0 && r.complaints.isEmpty then
      complain (str word ++ str " statement outside of loop")
    return if word == "break" then .stop else .onward
  | "exit" =>
    let code ← optional
    expectSeparator
    return .exit code
  | "return" =>
    let value ← optional
    expectSeparator
    if !((← get).scope matches .function ..) then complain (str "return outside function body")
    return .result value
  | "delete" =>
    let n ← expectName
    let index ← if ← skipOp "[" then some <$> indexOf inner else pure none
    expectSeparator
    useAs .array n
    return .delete n index
  | "if" =>
    let test ← condition inner
    let yes ← inner.statement
    if ← isWord "else" then
      skip
      skipFeeds
      return .conditional test yes (some (← inner.statement))
    else return .conditional test yes none
  | "while" =>
    let test ← condition inner
    return .loop test (← loopBody inner)
  | "do" =>
    skipFeeds
    let body ← loopBody inner
    loopEnd inner (← bound) body
  | "for" => forLoop inner
  | _ => refuse

def statementWords : List String :=
  ["print", "printf", "next", "nextfile", "break", "continue", "exit", "return", "delete", "if",
    "while", "do", "for"]

/-- A statement; one in which a token is refused is left out. -/
def statement (inner : Inner) : Read Statement := do
  try
    match ← peek with
    | .op "\x7b" => block inner
    | .word word =>
      if statementWords.contains word then
        skip
        wordStatement inner word
      else
        let e ← inner.expr 0
        expectSeparator
        return .expression e
    | t =>
      if t.isSeparator then
        skip
        return .block []
      else
        let e ← inner.expr 0
        expectSeparator
        return .expression e
  catch halt => recover halt

/-- Readers of expressions and statements, nested at most so deep. -/
def innerAt : (depth : Nat) → Inner
  | 0 => { expr := fun _ => refuse, exprFrom := fun _ => refuse, statement := refuse }
  | depth + 1 =>
    let inner := innerAt depth
    { expr := expr inner, exprFrom := exprFrom inner 0, statement := statement inner }

/-- How deep expressions and statements may be nested. -/
def maxNesting : Nat := 1000

/-! ## Programs -/

/-- The parameters of a function of that name, up to the closing parenthesis.  `fuel` bounds them. -/
def parameters (function : Chars) : (fuel : Nat) → (before : List Chars) → Read (List Chars)
  | 0, _ => refuse
  | fuel + 1, before => do
    let name ← match ← peek with
      | .name n => pure n
      | .function n => do
        if n == function then
          complain (str "function parameter cannot be the function")
          refuse
        pure n
      | _ => refuse
    skip
    let isKnown := before.contains name
    if isKnown then complain (name ++ str " is duplicated in argument list")
    let all := if isKnown then before else before ++ [name]
    if ← skipOp "," then parameters function fuel all
    else
      expect ")"
      return all

/-- A function, of which the word in front has been read. -/
def function (inner : Inner) : Read (Chars × Function) := do
  let name ← match ← peek with
    | .name n => do
      skip
      match (← get).kinds[n]? with
      | some k => complain (str "illegal reference to " ++ str k.word ++ ' ' :: n)
      | none => modify fun r => { r with functions := r.functions.insert n {} }
      pure n
    | .function n => do
      skip
      if (((← get).functions[n]?).bind Signature.count).isSome then
        complain (str "redefinition of " ++ n)
      pure n
    | _ => refuse
  expect "("
  let names ← if ← skipOp ")" then pure [] else parameters name (← bound) []
  skipFeeds
  modify fun r =>
    let kinds := ((r.functions[name]?).getD {}).kinds
    let parameters := names.zipIdx.map fun (n, i) => (n, (kinds[i]?).getD none)
    { r with scope := .function name parameters }
  let body ← block inner
  modify fun r =>
    let s := (r.functions[name]?).getD {}
    { r with
      scope := .main
      functions := r.functions.insert name { s with count := some names.length } }
  return (name, { parameters := names, body := body })

def rule (inner : Inner) : Read Rule := do
  let special (p : Pattern) : Read Rule := do
    skip
    modify fun r => { r with scope := .special }
    let b ← block inner
    modify fun r => { r with scope := .main }
    return { pattern := p, body := some b }
  match ← peek with
  | .word "BEGIN" => special .first
  | .word "END" => special .last
  | .op "\x7b" => return { pattern := .always, body := some (← block inner) }
  | _ =>
    let first ← inner.expr 0
    let p ← if ← skipOp "," then pure (Pattern.range first (← inner.expr 0))
      else pure (.test first)
    if ← isNext "\x7b" then return { pattern := p, body := some (← block inner) }
    else
      expectSeparator
      return { pattern := p, body := none }

/-- Drops tokens up to a brace that opens.  `fuel` bounds them. -/
def leaveRule : (fuel : Nat) → Read Unit
  | 0 => throw .over
  | fuel + 1 => do
    if (← peek) matches .ended then throw .over
    if !(← isNext "\x7b") then
      skip
      leaveRule fuel

/-- The rules and functions that are left.  One in which a token is refused is left, up to the next
block and with it.  `fuel` bounds them. -/
def script (inner : Inner) : (fuel : Nat) → Script → Read Script
  | 0, s => return s
  | fuel + 1, s => do
    if (← peek) matches .ended then return s
    let s ← try
        if ← isWord "function" then
          skip
          let f ← function inner
          pure { s with functions := s.functions ++ [f] }
        else
          let r ← rule inner
          pure { s with rules := s.rules ++ [r] }
      catch halt => do
        if halt matches .over then throw .over
        leaveRule (← bound)
        modify fun r => { r with scope := .main, silent := 3 }
        let _ ← block inner
        pure s
    script inner fuel s

def knownNames : List (String × Kind) :=
  ["NR", "FNR", "FS", "OFS", "ORS", "RS", "SUBSEP", "RSTART", "RLENGTH", "CONVFMT", "OFMT",
    "FILENAME", "ARGC"].map (·, Kind.scalar) ++ [("ARGV", .array), ("ENVIRON", .array)]

/-- The names of what records and fields are separated by. -/
def separatorNames : List Chars := [str "FS", str "RS"]

/-- The program that some sources spell, or complaints.  A source may have a name.  Some variables are
assigned before the program begins; what separates records and fields then is checked too. -/
def Script.read (sources : List (Option Chars × Chars)) (assigned separators : List Chars) :
    Except (List Chars) Script :=
  let whole (text : Chars) : Chars := text ++ ['\n']
  let first := sources.head?.getD (none, [])
  let kinds := knownNames.map (fun (name, k) => (str name, k)) ++ assigned.map (·, Kind.scalar)
  let start : Reader :=
    { text := whole first.2
      sources := (sources.drop 1).map fun (name, text) => (name.getD [], whole text)
      kinds := .ofList kinds }
  let reading : Read Script := do
    for separator in separators do checkPattern true (.text separator)
    modify fun r => { r with source := first.1 }
    skipFeeds
    let s ← script (innerAt maxNesting) ((← bound) + (sources.map (·.2.length)).foldl (· + ·) 0) {}
    if (← get).complaints.isEmpty then settleCalls
    return s
  match reading.run start with
  | (.ok s, r) => if r.complaints.isEmpty then .ok s else .error r.complaints.reverse
  | (.error _, r) => .error r.complaints.reverse

end ProductLine.Shell.Record
