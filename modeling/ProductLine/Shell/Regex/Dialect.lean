/- # Dialects of regular expressions — which signs are operators, and what becomes of a bad one

In the extended dialects parentheses, braces, bars, `+` and `?` are operators
by themselves, in the basic ones after a backslash.  Programs that share a
dialect still differ in what they make of an operator without anything to
repeat, of a brace that begins no bounds and of a range that goes down.
-/
import ProductLine.Shell.Regex

namespace ProductLine.Shell

/-- What becomes of an operator that has nothing to repeat. -/
inductive Stranded where
  | fault
  | character
  | skipped
deriving DecidableEq

/-- What becomes of a range whose last character comes before its first: a fault, a range of nothing,
or the three characters that spell it. -/
inductive Downward where
  | fault
  | nothing
  | characters
deriving DecidableEq

/-- How a regular expression is written.  `escapes` says that letters after a backslash stand for
control characters; with `codes` a backslash makes a single character of whatever follows it, by a
letter or by a number, also in brackets, and brackets have no names of single characters.
`stranded` and `strandedBounds` are for operators that have nothing to repeat, `stacking` says that
an operator may follow another one, and with `braceIsText` and `closingIsText` a brace that begins
no bounds and a closing parenthesis without its partner stand for themselves. -/
structure RegexDialect where
  extended : Bool
  stranded : Stranded
  strandedBounds : Stranded
  stacking : Bool := true
  braceIsText : Bool := false
  closingIsText : Bool := false
  downward : Downward := .fault
  escapes : Bool := false
  codes : Bool := false

def basicRegex : RegexDialect :=
  { extended := false, stranded := .character, strandedBounds := .character }

def extendedRegex : RegexDialect :=
  { extended := true, stranded := .fault, strandedBounds := .fault }

def controlChar? : Char → Option Char
  | 'n' => some '\n'
  | 't' => some '\t'
  | 'r' => some '\r'
  | 'f' => some '\x0c'
  | 'v' => some '\x0b'
  | 'a' => some '\x07'
  | _ => none

/-- The character that a backslash makes of a character and of those behind it, and what follows: of
up to three octal digits, of an `x` with up to two hexadecimal digits, of a letter that stands for a
control character, or of any other character by itself. -/
def codedChar (c : Char) (rest : Chars) : Char × Chars :=
  let (octal, size) := Chars.leadingNumber 8 ((c :: rest).take 3) 0 0
  if size != 0 then (Char.ofNat (octal % 256), rest.drop (size - 1))
  else
    match c with
    | 'x' =>
      let (hexadecimal, size) := Chars.leadingNumber 16 (rest.take 2) 0 0
      (if size = 0 then c else Char.ofNat hexadecimal, rest.drop size)
    | 'b' => ('\x08', rest)
    | _ => ((controlChar? c).getD c, rest)

/-- The operator at the front, without the backslash that it may need, and what follows. -/
def RegexDialect.operator? (d : RegexDialect) : Chars → Option (Char × Chars)
  | '*' :: rest => some ('*', rest)
  | '\\' :: c :: rest => if !d.extended && "+?\x7b".toList.contains c then some (c, rest) else none
  | c :: rest => if d.extended && "+?\x7b".toList.contains c then some (c, rest) else none
  | [] => none

/-! ## Bounds -/

/-- Why a brace begins no bounds; `isText` says that it is then a brace where a dialect allows it. -/
structure BoundsFault where
  message : String
  isText : Bool

def maxBound : Nat := 32767

/-- The text of a bound, up to a comma or a closing brace; says too whether a comma ends it, and what
follows. -/
def RegexDialect.boundText (d : RegexDialect) : Chars → Option (Chars × Bool × Chars)
  | ',' :: rest => some ([], true, rest)
  | '\\' :: '\x7d' :: rest =>
    if d.extended then (d.boundText ('\x7d' :: rest)).map fun (s, isComma, rest) =>
      ('\\' :: s, isComma, rest)
    else some ([], false, rest)
  | c :: rest =>
    if d.extended && c == '\x7d' then some ([], false, rest)
    else (d.boundText rest).map fun (s, isComma, rest) => (c :: s, isComma, rest)
  | [] => none

/-- The bounds behind an opening brace, and what follows them. -/
def RegexDialect.bounds (d : RegexDialect) (text : Chars) :
    Except BoundsFault ((Nat × Option Nat) × Chars) := do
  let content : String := "Invalid content of \\\x7b\\\x7d"
  let broken : BoundsFault := ⟨"Unmatched \\\x7b", true⟩
  let some (least, hasMost, rest) := d.boundText text | throw broken
  if !least.all Char.isDigit then throw ⟨content, true⟩
  let fits (n : Nat) : Bool := d.codes || n ≤ maxBound
  if !hasMost then
    if least.isEmpty then throw ⟨content, false⟩
    let n := Chars.digitsValue least
    if fits n then return ((n, some n), rest) else throw ⟨"Regular expression too big", false⟩
  let some (most, hasMore, rest) := d.boundText rest | throw broken
  if !most.all Char.isDigit then throw ⟨content, true⟩
  if hasMore then throw ⟨content, false⟩
  let n := Chars.digitsValue least
  if most.isEmpty then
    if !fits n then throw ⟨"Regular expression too big", false⟩
    else return ((n, if d.codes && least.isEmpty then some 0 else none), rest)
  let m := Chars.digitsValue most
  if m < n then throw ⟨content, false⟩
  if !fits m then throw ⟨"Regular expression too big", false⟩
  return ((n, some m), rest)

end ProductLine.Shell
