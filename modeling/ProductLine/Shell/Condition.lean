/- # Conditions — what `test` and its bracketed form decide

A condition is a list of words.  One dialect reads it from left to right
with a grammar; the other ones look at the number of words first, and use a
grammar only where that number does not settle what is meant.
-/
import ProductLine.Shell.Format
import ProductLine.Shell.Process

namespace ProductLine.Shell

/-! ## Facts about files -/

/-- What conditions can find out about files and about the streams of the process. -/
structure FileView where
  files : FileTree
  directory : Location
  streams : List (Nat × Target) := []

inductive Tested where
  | node (place : Location) (node : FileNode)
  | stream (target : Target)
deriving DecidableEq

namespace FileView

/-- What a path leads to; a link at its end is followed only if that is wanted. -/
def find? (v : FileView) (followsLast : Bool) (path : Chars) : Option Tested :=
  if path.isEmpty then none
  else
    match { v.files with workingDirectory := v.directory }.locatePath followsLast
      (Chars.toName path) with
    | .error _ => none
    | .ok ["proc", "self", "fd", n] =>
      ((Chars.toNat? n.toList).bind fun n => v.streams.lookup n).map .stream
    | .ok place =>
      match v.files.node? place with
      | some .directory => some (.node place .directory)
      | some node => if Process.wantsDirectory path then none else some (.node place node)
      | none => none

/-- The file tests about what a path leads to, by their letter. -/
def holdsOf (v : FileView) (letter : Char) : Tested → Bool
  | .node _ (.file number) | .stream (.file number) =>
    match letter with
    | 'x' => v.files.isRunnable number
    | 's' => v.files.size number != 0
    | letter => "ferwaOG".toList.contains letter
  | .node _ .directory | .stream (.directory _) => "dxserwaOG".toList.contains letter
  | .stream (.pipe _) => "perwaOG".toList.contains letter
  | .node _ (.device _) | .stream _ => "cerwaOG".toList.contains letter
  | .node _ (.link _) => letter == 'L' || letter == 'h'

def holds (v : FileView) (letter : Char) (path : Chars) : Bool :=
  (v.find? (letter != 'L' && letter != 'h') path).any (v.holdsOf letter)

/-- Both paths lead to the same thing. -/
def same (v : FileView) (left right : Chars) : Bool :=
  match v.find? true left, v.find? true right with
  | some (.node _ (.file a)), some (.node _ (.file b)) => a == b
  | some a, some b => a == b
  | _, _ => false

end FileView

def Process.fileView (p : Process) : Act FileView := do
  let m ← get
  let streams := p.streams.filterMap fun (n, number) =>
    (m.openings[number]?).map fun opening => (n, opening.target)
  return { files := m.files, directory := p.directory, streams := streams }

/-! ## Operators -/

def unaryOperators : List String :=
  ["-r", "-w", "-x", "-e", "-f", "-d", "-c", "-b", "-p", "-u", "-g", "-k", "-s", "-t", "-z", "-n",
    "-h", "-O", "-G", "-L", "-S"]

/-- The operators that stand between two operands. -/
def binaryOperators : List String :=
  ["=", "!=", "<", ">", "-eq", "-ne", "-ge", "-gt", "-le", "-lt", "-nt", "-ot", "-ef"]

def unaryValue (v : FileView) (op : String) (operand : Chars) : Bool :=
  match op.toList with
  | ['-', 'z'] => operand.isEmpty
  | ['-', 'n'] => !operand.isEmpty
  | ['-', letter] => letter != 't' && v.holds letter operand
  | _ => false

/-- The value of an operator between two operands. -/
def binaryValue (v : FileView) (number : Chars → Except Chars Int) (left : Chars) (op : String)
    (right : Chars) : Except Chars Bool :=
  let compare (f : Int → Int → Bool) : Except Chars Bool := do
    let a ← number left
    let b ← number right
    return f a b
  match op with
  | "=" | "==" => .ok (left == right)
  | "!=" => .ok (left != right)
  | "<" => .ok (Chars.compare left right == .lt)
  | ">" => .ok (Chars.compare left right == .gt)
  | "-eq" => compare (· == ·)
  | "-ne" => compare (· != ·)
  | "-lt" => compare (· < ·)
  | "-le" => compare (· ≤ ·)
  | "-gt" => compare (· > ·)
  | "-ge" => compare (· ≥ ·)
  | "-ef" => .ok (v.same left right)
  | "-nt" => .ok ((v.find? true left).isSome && (v.find? true right).isNone)
  | "-ot" => .ok ((v.find? true left).isNone && (v.find? true right).isSome)
  | _ => .ok false

def looseInt? (text : Chars) : Option Int :=
  let trimmed := ((text.dropWhile Chars.isSpace).reverse.dropWhile Chars.isSpace).reverse
  Chars.toInt? trimmed

/-! ## The condition read from left to right -/

namespace Grammar

/-- A word as the grammar sees it at a place. -/
inductive Token where
  | endOfWords
  | operand
  | negation
  | conjunction
  | disjunction
  | opening
  | closing
  | unary (op : String)
  | binary (op : String)
deriving DecidableEq

def operator? (word : Chars) : Option Token :=
  match String.ofList word with
  | "!" => some .negation
  | "-a" => some .conjunction
  | "-o" => some .disjunction
  | "(" => some .opening
  | ")" => some .closing
  | op =>
    if unaryOperators.contains op then some (.unary op)
    else if binaryOperators.contains op then some (.binary op)
    else none

/-- The word is an operator between two operands. -/
def isBinary (word : Chars) : Bool :=
  match operator? word with
  | some (.binary _) => true
  | _ => false

/-- The first word as the grammar sees it: an operator before one operand is an operand itself if
nothing follows, or if an operator between two operands follows and an operand after it. -/
def token : List Chars → Token
  | [] => .endOfWords
  | word :: rest =>
    match operator? word with
    | some (.unary op) =>
      match rest with
      | [] => .operand
      | [_] => .unary op
      | next :: _ => if isBinary next then .operand else .unary op
    | some .opening => if rest.isEmpty then .operand else .opening
    | some t => t
    | none => .operand

def number (text : Chars) : Except Chars Int :=
  match looseInt? text with
  | some n => .ok n
  | none => .error (str "Illegal number: " ++ text)

def complaint (op : Chars) (text : String) : Chars :=
  if op.isEmpty then str text else op ++ str ": " ++ str text

/-- A value and the words from the last one on that was looked at. -/
abbrev Value := Except Chars (Bool × List Chars)

/-- The value of operands joined by `joins`, where `part` reads one of them; `join` combines two
values. -/
def joined (joins : Token) (join : Bool → Bool → Bool) (part : Token → List Chars → Value) :
    (fuel : Nat) → Token → List Chars → Value
  | 0, _, _ => .error []
  | fuel + 1, t, words => do
    let (value, words) ← part t words
    if token (words.drop 1) == joins then
      let words := words.drop 2
      let (more, words) ← joined joins join part fuel (token words) words
      return (join value more, words)
    else return (value, words)

/-- The value of an operand or of an operator with its operands; `all` reads what stands in
parentheses. -/
def primary (v : FileView) (all : Token → List Chars → Value) (t : Token) (words : List Chars) :
    Value :=
  match t with
  | .endOfWords => .ok (false, words)
  | .opening =>
    let inside := words.drop 1
    if token inside == .closing then .ok (false, inside)
    else do
      let (value, words) ← all (token inside) inside
      let words := words.drop 1
      if token words == .closing then return (value, words)
      else throw (str "closing paren expected")
  | .unary op =>
    match words.drop 1 with
    | [] => .error (complaint (str op) "argument expected")
    | operand :: rest => .ok (unaryValue v op operand, operand :: rest)
  | _ =>
    match words with
    | left :: op :: rest =>
      match token (op :: rest) with
      | .binary name =>
        match rest with
        | [] => .error (complaint op "argument expected")
        | right :: _ => do
          let value ← binaryValue v number left name right
          return (value, rest)
      | _ => .ok (!left.isEmpty, words)
    | left :: _ => .ok (!left.isEmpty, words)
    | [] => .ok (false, words)

def negated (primary : Token → List Chars → Value) :
    (fuel : Nat) → Token → List Chars → Value
  | 0, _, _ => .error []
  | fuel + 1, t, words =>
    if t == .negation then do
      let rest := words.drop 1
      let t := token rest
      let (value, words) ← negated primary fuel t (if rest.isEmpty then words else rest)
      return (!value, words)
    else primary t words

def all (v : FileView) : (fuel : Nat) → Token → List Chars → Value
  | 0, _, _ => .error []
  | fuel + 1, t, words =>
    let part := negated (primary v (all v fuel)) (fuel + 1)
    joined .disjunction (· || ·) (joined .conjunction (· && ·) part (fuel + 1)) (fuel + 1) t words

/-- The value of words that are read as the token says, and to their end. -/
def whole (v : FileView) (t : Token) (words : List Chars) : Except Chars Bool := do
  let (value, rest) ← all v (words.length + 2) t words
  match rest with
  | op :: _ :: _ => throw (complaint op "unexpected operator")
  | _ => return value

/-- The value of three or four words, of which the first may negate the others and parentheses may
enclose them; `inner` reads those behind a negation. -/
def enclosed (v : FileView) (inner : List Chars → Except Chars Bool) (words : List Chars) :
    Except Chars Bool :=
  match words with
  | ['!'] :: rest => (inner rest).map (!·)
  | ['('] :: rest =>
    if rest.getLast? == some [')'] then whole v (token rest.dropLast) rest.dropLast
    else whole v (token words) words
  | _ => whole v (token words) words

/-- The value of the words of a condition.  Three and four words are looked at as a whole first. -/
def value (v : FileView) : (fuel : Nat) → List Chars → Except Chars Bool
  | 0, _ => .error []
  | fuel + 1, words =>
    match words with
    | [] => .ok false
    | [left, op, right] =>
      match operator? op with
      | some (.binary name) => binaryValue v number left name right
      | _ => enclosed v (value v fuel) words
    | [_, _, _, _] => enclosed v (value v fuel) words
    | _ => whole v (token words) words

end Grammar

/-! ## The condition read by its number of words -/

namespace Counted

structure Wording where
  unaryExpected : Chars → Chars
  binaryExpected : Chars → Chars
  notInteger : Chars → Chars
  argumentExpected : Chars → Chars
  parenExpected : Chars
  tooMany : Chars → Chars

def shellWording : Wording where
  unaryExpected word := word ++ str ": unary operator expected"
  binaryExpected word := word ++ str ": binary operator expected"
  notInteger word := word ++ str ": integer expression expected"
  argumentExpected _ := str "argument expected"
  parenExpected := str "\x60)' expected"
  tooMany _ := str "too many arguments"

def programWording : Wording where
  unaryExpected word := Chars.quoted word ++ str ": unary operator expected"
  binaryExpected word := Chars.quoted word ++ str ": binary operator expected"
  notInteger word := str "invalid integer " ++ Chars.quoted word
  argumentExpected word := str "missing argument after " ++ Chars.quoted word
  parenExpected := str "')' expected"
  tooMany word := str "extra argument " ++ Chars.quoted word

def isUnary (word : Chars) : Bool :=
  unaryOperators.contains (String.ofList word) || ["-a", "-v", "-o", "-N"].contains
    (String.ofList word)

/-- The word is an operator between two operands. -/
def isBinary (word : Chars) : Bool :=
  binaryOperators.contains (String.ofList word) || word == str "=="

def number (w : Wording) (text : Chars) : Except Chars Int :=
  match looseInt? text with
  | some n => .ok n
  | none => .error (w.notInteger text)

def two (w : Wording) (v : FileView) (a b : Chars) : Except Chars Bool :=
  if a == ['!'] then .ok b.isEmpty
  else if isUnary a then .ok (unaryValue v (String.ofList a) b)
  else .error (w.unaryExpected a)

def three (w : Wording) (v : FileView) (a b c : Chars) : Except Chars Bool :=
  if isBinary b then binaryValue v (number w) a (String.ofList b) c
  else if b == str "-a" then .ok (!a.isEmpty && !c.isEmpty)
  else if b == str "-o" then .ok (!a.isEmpty || !c.isEmpty)
  else if a == ['!'] then (two w v b c).map (!·)
  else if a == ['('] && c == [')'] then .ok (!b.isEmpty)
  else .error (w.binaryExpected b)

abbrev Value := Except Chars (Bool × List Chars)

def joined (joins : Chars) (join : Bool → Bool → Bool) (part : List Chars → Value) :
    (fuel : Nat) → List Chars → Value
  | 0, _ => .error []
  | fuel + 1, words => do
    let (value, words) ← part words
    match words with
    | word :: rest =>
      if word == joins then
        let (more, words) ← joined joins join part fuel rest
        return (join value more, words)
      else return (value, words)
    | [] => return (value, words)

def term (w : Wording) (v : FileView) (all : List Chars → Value) :
    (fuel : Nat) → List Chars → Value
  | 0, _ => .error []
  | fuel + 1, words =>
    match words with
    | [] => .error (w.argumentExpected [])
    | ['!'] :: rest => do
      let (value, rest) ← term w v all fuel rest
      return (!value, rest)
    | a :: b :: c :: rest =>
      if isBinary b then do
        let value ← binaryValue v (number w) a (String.ofList b) c
        return (value, rest)
      else if a == ['('] then do
        let (value, rest) ← all (b :: c :: rest)
        match rest with
        | [')'] :: rest => return (value, rest)
        | _ => throw w.parenExpected
      else if isUnary a then .ok (unaryValue v (String.ofList a) b, c :: rest)
      else .ok (!a.isEmpty, b :: c :: rest)
    | [a, b] =>
      if isUnary a then .ok (unaryValue v (String.ofList a) b, []) else .ok (!a.isEmpty, [b])
    | [a] => .ok (!a.isEmpty, [])

def all (w : Wording) (v : FileView) : (fuel : Nat) → List Chars → Value
  | 0, _ => .error []
  | fuel + 1, words =>
    joined (str "-o") (· || ·)
      (joined (str "-a") (· && ·) (term w v (all w v fuel) (fuel + 1)) (fuel + 1)) (fuel + 1) words

def value (w : Wording) (v : FileView) (words : List Chars) : Except Chars Bool :=
  let general : Except Chars Bool := do
    let (value, rest) ← all w v (words.length + 2) words
    match rest with
    | [] => return value
    | word :: _ => throw (w.tooMany word)
  match words with
  | [] => .ok false
  | [a] => .ok (!a.isEmpty)
  | [a, b] => two w v a b
  | [a, b, c] => three w v a b c
  | [['!'], a, b, c] => (three w v a b c).map (!·)
  | [['('], a, b, [')']] => two w v a b
  | _ => general

end Counted

def conditionValue (dialect : Dialect) (v : FileView) (words : List Chars) : Except Chars Bool :=
  match dialect with
  | .posix => Grammar.value v (words.length + 2) words
  | .bash => Counted.value Counted.shellWording v words
  | .program => Counted.value Counted.programWording v words

/-- The complaint about a condition in brackets that are not closed. -/
def unclosedCondition : Dialect → Chars
  | .posix => str "missing ]"
  | .bash => str "missing \x60]'"
  | .program => str "missing ']'"

end ProductLine.Shell
