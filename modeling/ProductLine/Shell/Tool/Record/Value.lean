/- # Values of `awk` — numbers, texts, and texts that may be numbers

What is read from an input counts as a number in comparisons if it looks
like one.  A number is written without a point if it is whole, and else in
the format that the program asks for.
-/
import ProductLine.Shell.Format
import ProductLine.Shell.Tool.Record.Token

namespace ProductLine.Shell.Record

/-- A value.  An `input` is a text that was read, and may be meant as a number. -/
inductive Value where
  | unset
  | number (x : Float)
  | text (s : Chars)
  | input (s : Chars)
deriving Inhabited

def quantityOf (x : Float) : Quantity :=
  let bits := x.toBits.toNat
  let negative := bits / Nat.pow 2 63 == 1
  let exponent := bits / Nat.pow 2 52 % 2048
  let mantissa := bits % Nat.pow 2 52
  if exponent = 2047 then if mantissa = 0 then .infinite negative else .notANumber
  else
    let (m, e) : Nat × Int :=
      if exponent = 0 then (mantissa, 1) else (mantissa + Nat.pow 2 52, exponent)
    let power := e - 1075
    if 0 ≤ power then .finite negative (m * Nat.pow 2 power.toNat) 1
    else
      let den := Nat.pow 2 (-power).toNat
      let common := Nat.gcd m den
      .finite negative (m / common) (den / common)

/-- Below this number every whole number is a machine number. -/
def exactBound : Nat := 9007199254740992

def ofNatural (n : Nat) : Float :=
  if n < exactBound then n.toUInt64.toFloat else Float.ofNat n

def ofInt (n : Int) : Float :=
  if n < 0 then -(ofNatural n.natAbs) else ofNatural n.natAbs

/-- The natural number that a machine number is, if it is one and below the bound. -/
def natural? (x : Float) : Option Nat :=
  if 0 ≤ x && x < 9007199254740992 then
    let n := x.toUInt64
    if n.toFloat == x then some n.toNat else none
  else none

/-- The integer that a machine number is, if it is one and within the bound. -/
def integer? (x : Float) : Option Int :=
  match natural? x with
  | some n => some n
  | none => if x < 0 then (natural? (-x)).map fun n => -(n : Int) else none

def wholePart? (x : Float) : Option Int :=
  match integer? x with
  | some n => some n
  | none =>
    match quantityOf x with
    | .finite negative num den =>
      let n : Int := num / den
      some (if negative then -n else n)
    | _ => none

/-- What is left of one machine number after it is divided by another. -/
def remainderOf (a b : Float) : Float :=
  match integer? a, integer? b with
  | some m, some n => if n = 0 then 0 / 0 else ofInt (m.tmod n)
  | _, _ =>
    match quantityOf a, quantityOf b with
    | .finite negative num den, .finite _ num' den' =>
      if num' = 0 then 0 / 0
      else
        let r := Float.ofNat (num * den' % (num' * den)) / Float.ofNat (den * den')
        if negative then -r else r
    | _, _ => if b.isInf && !a.isInf && !a.isNaN then a else 0 / 0

/-- The most digits of which a number is always exact. -/
def exactDigits : Nat := 15

/-- The number in front of a text without a sign, and what follows. -/
def unsignedIn (text : Chars) : Option (Float × Chars) :=
  let digits := text.takeWhile Char.isDigit
  let rest := text.drop digits.length
  let isWhole := match rest with
    | c :: _ => c != '.' && c != 'e' && c != 'E'
    | [] => true
  if isWhole && !digits.isEmpty && digits.length ≤ exactDigits then
    some (ofNatural (Chars.digitsValue digits), rest)
  else readNumber text

def ofQuantity : Quantity → Float
  | .notANumber => 0 / 0
  | .infinite negative => if negative then -1 / 0 else 1 / 0
  | .finite negative num den =>
    let x := Float.ofNat num / Float.ofNat den
    if negative then -x else x

/-- The number in front of a text, with its sign, and what follows. -/
def numberIn (text : Chars) : Option (Float × Chars) :=
  let text := text.dropWhile Chars.isSpace
  let (negative, body) := match text with
    | '-' :: rest => (true, rest)
    | '+' :: rest => (false, rest)
    | rest => (false, rest)
  let isSpecial := match body with
    | '0' :: x :: _ => x == 'x' || x == 'X'
    | c :: _ => c.isAlpha
    | [] => false
  if isSpecial then
    (Quantity.read 53 text).map fun (q, rest) => (ofQuantity q, rest)
  else (unsignedIn body).map fun (x, rest) => (if negative then -x else x, rest)

/-- The text is a number, with blanks around it, that ends with a digit or a point. -/
def looksNumeric (text : Chars) : Bool :=
  (numberIn text).any fun found => found.2.all Chars.isSpace &&
    (text.reverse.find? fun c => !Chars.isSpace c).any fun c => c.isDigit || c == '.'

/-- The numbers of a signed machine word are below this. -/
def signedBound : Nat := Nat.pow 2 63

/-- The numbers of a machine word without a sign are below this. -/
def unsignedBound : Nat := Nat.pow 2 64

/-- The nearest number of a signed machine word.  What is no number is the least one, which no other
negative number beyond it is. -/
def nearestSigned (q : Quantity) : Int :=
  match q with
  | .notANumber => -signedBound
  | .infinite negative => if negative then 1 - signedBound else signedBound - 1
  | .finite negative num den =>
    let n := num / den
    if negative then if signedBound < n then 1 - signedBound else -n
    else min n (signedBound - 1)

/-- The nearest number of a machine word without a sign; of a negative number, what is missing to the
bound. -/
def nearestUnsigned (q : Quantity) : Nat :=
  let sized (negative : Bool) (n : Nat) : Nat :=
    if negative then (unsignedBound - min n (unsignedBound - 1)) % unsignedBound
    else min n (unsignedBound - 1)
  match q with
  | .notANumber => signedBound
  | .infinite negative => sized negative unsignedBound
  | .finite negative num den => sized negative (num / den)

def formattedNumber (format : Chars) (x : Float) : Chars :=
  match quantityOf x with
  | .notANumber => str "-nan"
  | q =>
    let directive := format.dropWhile (· == '%')
    let precision := match directive with
      | '.' :: digits => Chars.toNat? (digits.takeWhile Char.isDigit)
      | _ => none
    let field : Field := { precision := precision }
    let kind := (format.getLast?).getD 'g'
    if kind == 'd' || kind == 'i' then Chars.ofInt ((wholePart? x).getD 0)
    else field.real kind q

def longNumberText (format : Chars) (x : Float) : Chars :=
  match quantityOf x with
  | .finite negative num den =>
    if den = 1 && num ≤ (if negative then signedBound else unsignedBound) then
      if negative && num != 0 then '-' :: Chars.ofNat num
      else Chars.ofNat (min num (unsignedBound - 1))
    else formattedNumber format x
  | .infinite negative => str (if negative then "-inf" else "inf")
  | .notANumber => formattedNumber format x

def numberText (format : Chars) (x : Float) : Chars :=
  match integer? x with
  | some n => Chars.ofInt n
  | none => longNumberText format x

namespace Value

def toNumber : Value → Float
  | unset => 0
  | number x => x
  | text s | input s => ((numberIn s).map Prod.fst).getD 0

def toText (format : Chars) : Value → Chars
  | unset => []
  | number x => numberText format x
  | text s | input s => s

def toTruth : Value → Bool
  | unset => false
  | number x => x != 0
  | text s => !s.isEmpty
  | input s => if looksNumeric s then ((numberIn s).map Prod.fst).getD 0 != 0 else !s.isEmpty

def isNumeric : Value → Bool
  | unset | number _ => true
  | text _ => false
  | input s => looksNumeric s

def ofBool (b : Bool) : Value := .number (if b then 1 else 0)

def ofNat (n : Nat) : Value := .number (ofNatural n)

/-- Two numbers stand in a relation; if neither is less, they are taken to be equal. -/
def numbersStand (r : Relation) (x y : Float) : Bool :=
  match r with
  | .less => x < y
  | .atMost => !(y < x)
  | .equal => !(x < y || y < x)
  | .unequal => x < y || y < x
  | .greater => y < x
  | .atLeast => !(x < y)

def textsStand (r : Relation) (a b : Chars) : Bool :=
  match r with
  | .less => Chars.compare a b == .lt
  | .atMost => Chars.compare a b != .gt
  | .equal => a == b
  | .unequal => a != b
  | .greater => Chars.compare a b == .gt
  | .atLeast => Chars.compare a b != .lt

end Value

/-! ## Formats -/

/-- What can be wrong with a format: there is no argument for a field, or the field with that number
is of no known kind. -/
inductive FormatFault where
  | lacking
  | improper (number : Nat)

def FormatFault.message (operation format : Chars) : FormatFault → Chars
  | lacking =>
    str "not enough arguments passed to " ++ operation ++ str "(\"" ++ format ++ str "\")"
  | improper n => str "improper conversion(number " ++ Chars.ofNat n ++ str ") in " ++ operation ++
      str "(\"" ++ format ++ str "\")"

/-- What has come of a format so far, how many fields it had, and the arguments left. -/
structure Formatted where
  output : List Chars := []
  arguments : List Value
  fields : Nat := 0
  fault? : Option FormatFault := none

def Formatted.stop (f : Formatted) (fault : FormatFault) : Formatted :=
  { f with fault? := f.fault?.or (some fault) }

def Formatted.next (f : Formatted) : Value × Formatted :=
  match f.arguments with
  | [] => (.unset, f.stop .lacking)
  | v :: rest => (v, { f with arguments := rest })

def Formatted.emit (f : Formatted) (text : Chars) : Formatted :=
  match f.fault? with
  | none => { f with output := text :: f.output }
  | some _ => f

/-- The number of a width or precision: digits, or the next argument for a star. -/
def Formatted.size (f : Formatted) (text : Chars) : Option Int × Chars × Formatted :=
  match text with
  | '*' :: rest =>
    let (v, f) := f.next
    (wholePart? v.toNumber, rest, f)
  | _ =>
    let digits := text.takeWhile Char.isDigit
    (if digits.isEmpty then none else some (Chars.digitsValue digits), text.drop digits.length, f)

/-- Prints one field of a kind; `isShort` says that its integers have 16 bits. -/
def Formatted.convert (f : Formatted) (format : Chars) (field : Field) (isShort : Bool)
    (kind : Char) : Formatted :=
  match kind with
  | 'd' | 'i' =>
    let (v, f) := f.next
    let q := quantityOf v.toNumber
    let n := nearestSigned q
    let n := if kind == 'd' && n = signedBound - 1 then (nearestUnsigned q : Int) else n
    f.emit (field.signed (if isShort then Int.bmod n 65536 else n))
  | 'u' | 'o' | 'x' | 'X' =>
    let (v, f) := f.next
    let n := nearestUnsigned (quantityOf v.toNumber)
    f.emit (field.unsigned kind (if isShort then n % 65536 else n))
  | 'e' | 'E' | 'f' | 'F' | 'g' | 'G' =>
    let (v, f) := f.next
    match quantityOf v.toNumber with
    | .notANumber => f.emit (field.pad (str (if kind.isUpper then "-NAN" else "-nan")))
    | q => f.emit (field.real kind q)
  | 'c' =>
    let (v, f) := f.next
    let shown :=
      if v.isNumeric then Char.ofNat (((wholePart? v.toNumber).getD 0) % 256).toNat
      else (v.toText format).headD '\x00'
    f.emit (field.text [shown])
  | 's' =>
    let (v, f) := f.next
    f.emit (field.text (v.toText format))
  | _ =>
    let (_, f) := f.next
    f.stop (.improper f.fields)

/-- Prints the field whose percent sign has been read, and says what follows. -/
def Formatted.directive (f : Formatted) (format text : Chars) : Formatted × Chars :=
  let flags := text.takeWhile "-+ #0".toList.contains
  let after := text.drop flags.length
  let (width, after, f) := f.size after
  let (precision, after, f) : Option Int × Chars × Formatted := match after with
    | '.' :: rest =>
      let (p, rest, f) := f.size rest
      (some (p.getD 0), rest, f)
    | rest => (none, rest, f)
  let size := ["h", "ll", "l"].find? fun size => (str size).isPrefixOf after
  let after := after.drop (size.elim 0 String.length)
  let width := width.getD 0
  let field : Field :=
    { left := flags.contains '-' || width < 0, zero := flags.contains '0'
      plus := flags.contains '+', space := flags.contains ' ', alternate := flags.contains '#'
      width := width.natAbs
      precision := precision.bind fun p => if p < 0 then none else some p.toNat }
  let f := { f with fields := f.fields + 1 }
  match after with
  | [] => (f.convert format field false '%', [])
  | kind :: rest =>
    let kind := if size.isSome && !"dioxXu".toList.contains kind then '%' else kind
    (f.convert format field (size == some "h") kind, rest)

/-- What a format makes of its arguments; `fuel` bounds the format. -/
def Formatted.run (format : Chars) : (fuel : Nat) → Chars → Formatted → Formatted
  | 0, _, f => f
  | _, [], f => f
  | fuel + 1, '%' :: '%' :: rest, f => Formatted.run format fuel rest (f.emit ['%'])
  | fuel + 1, '%' :: rest, f =>
    let (f, rest) := f.directive format rest
    match f.fault? with
    | some _ => f
    | none => Formatted.run format fuel rest f
  | fuel + 1, c :: rest, f => Formatted.run format fuel rest (f.emit [c])

/-- The text that a format makes of its arguments, as far as it goes, and what is wrong with it. -/
def formatted (conversion format : Chars) (arguments : List Value) : Chars × Option FormatFault :=
  let f := Formatted.run conversion (format.length + 1) format { arguments := arguments }
  (f.output.reverse.flatten, f.fault?)

/-! ## Parts of texts -/

/-- The leftmost match of a pattern from a place on: from where to where. -/
def find? (r : Regex) (text : Chars) (start : Nat) : Option (Nat × Nat) :=
  (r.search { text := text.toArray } start).map fun (i, j, _) => (i, j)

/-- The parts of a text between the matches of a pattern that are not empty.  `fuel` bounds them. -/
def splitAt (r : Regex) (s : Subject) : (fuel : Nat) → (start place : Nat) → List Chars
  | 0, start, _ => [s.part start s.text.size]
  | fuel + 1, start, place =>
    match r.search s place with
    | none => [s.part start s.text.size]
    | some (i, j, _) =>
      if i < j then s.part start i :: splitAt r s fuel j j
      else if s.text.size ≤ place then [s.part start s.text.size]
      else splitAt r s fuel start (place + 1)

/-- The pattern that a text spells; one that cannot be read matches the text itself. -/
def patternOf (text : Chars) : Regex :=
  match pattern text with
  | .ok r => r
  | .error _ => Regex.ofText text

/-- The fields of a text, which is cut at the matches of `separator`: at blanks and line feeds if
that is a blank, and at each character if there is none. -/
def fieldsOf (separator text : Chars) : List Chars :=
  if text.isEmpty then []
  else
    match separator with
    | [' '] => Chars.words text
    | [] => text.map fun c => [c]
    | [c] => text.splitOn c
    | _ => splitAt (patternOf separator) { text := text.toArray } (text.length + 1) 0 0

/-- The text with matches of a pattern replaced, and how many; `new` gives what is put in the place
of a match.  `fuel` bounds the matches, and `behind` is where the last one ended. -/
def replaceMatches (r : Regex) (new : Chars → Chars) (all : Bool) (s : Subject) :
    (fuel : Nat) → (start : Nat) → (behind : Option Nat) → Chars × Nat
  | 0, start, _ => (s.part start s.text.size, 0)
  | fuel + 1, start, behind =>
    if s.text.size < start then ([], 0)
    else
      match r.search s start with
      | none => (s.part start s.text.size, 0)
      | some (i, j, _) =>
        let front := s.part start i
        let step := if i == j then s.part i (i + 1) else []
        let next := if i == j then j + 1 else j
        if i == j && behind == some i then
          let (rest, n) := replaceMatches r new all s fuel next none
          (front ++ step ++ rest, n)
        else
          let (rest, n) := if all then replaceMatches r new all s fuel next (some j)
            else (s.part next s.text.size, 0)
          (front ++ new (s.part i j) ++ step ++ rest, n + 1)

/-- What is put in the place of a match: an ampersand stands for the match. -/
def replacement (found : Chars) : Chars → Chars
  | '\\' :: '&' :: rest => '&' :: replacement found rest
  | '\\' :: '\\' :: '&' :: rest => '\\' :: found ++ replacement found rest
  | '&' :: rest => found ++ replacement found rest
  | c :: rest => c :: replacement found rest
  | [] => []

end ProductLine.Shell.Record
