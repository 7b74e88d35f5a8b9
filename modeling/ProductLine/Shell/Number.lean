/- # Numbers in print — integers in any base, fractions to any number of places

A quantity is a fraction with a sign, or no number.  It is rounded to so
many binary digits where it is read, as a machine that holds it would round
it, and to so many decimal places where it is printed; a half goes to the
even neighbour both times.
-/
import ProductLine.Shell.Chars

namespace ProductLine.Shell

/-- A number as programs compute with it, of which `den` is not zero. -/
inductive Quantity where
  | finite (negative : Bool) (num den : Nat)
  | infinite (negative : Bool)
  | notANumber
deriving Inhabited

/-- A quotient rounded to the nearest integer, a half to the even one. -/
def roundQuotient (num den : Nat) : Nat :=
  let q := num / den
  let r := num % den
  if den < 2 * r || (2 * r == den && q % 2 == 1) then q + 1 else q

/-- The largest `k` from `low` up for which ten to the power `k` is at most `num / den`, searched
for in at most `fuel` steps; powers below zero count as fractions. -/
def decimalExponent (num den : Nat) : Int :=
  if num = 0 then 0
  else
    let guess : Int := ((Nat.toDigits 10 num).length : Int) - (Nat.toDigits 10 den).length
    let atMost (k : Int) : Bool :=
      if 0 ≤ k then Nat.pow 10 k.toNat * den ≤ num else den ≤ num * Nat.pow 10 (-k).toNat
    if atMost guess then guess else guess - 1

/-- A fraction times a power of ten, rounded. -/
def scaled (num den : Nat) (power : Int) : Nat :=
  if 0 ≤ power then roundQuotient (num * Nat.pow 10 power.toNat) den
  else roundQuotient num (den * Nat.pow 10 (-power).toNat)

def padZeros (width : Nat) (digits : Chars) : Chars :=
  List.replicate (width - digits.length) '0' ++ digits

/-- A fraction with so many places behind the point. -/
def fixedText (num den places : Nat) (alternate : Bool) : Chars :=
  let digits := padZeros (places + 1) (Chars.ofNat (scaled num den places))
  let whole := digits.take (digits.length - places)
  if places = 0 then whole ++ (if alternate then ['.'] else [])
  else whole ++ '.' :: digits.drop (digits.length - places)

/-- The decimal exponent of a fraction that is rounded to one more digit than `places`, and those
digits. -/
def roundedDigits (num den places : Nat) : Int × Chars :=
  let e := decimalExponent num den
  let n := scaled num den (places - e)
  if n = Nat.pow 10 (places + 1) then (e + 1, Chars.ofNat (n / 10))
  else (e, padZeros (places + 1) (Chars.ofNat n))

/-- The sign, and at least two digits, of an exponent. -/
def exponentText (e : Int) : Chars :=
  (if e < 0 then '-' else '+') :: padZeros 2 (Chars.ofNat e.natAbs)

/-- A fraction with one digit before the point and an exponent. -/
def scientificText (num den places : Nat) (alternate : Bool) : Chars :=
  let (e, digits) := roundedDigits num den places
  let point := if places = 0 then (if alternate then ['.'] else []) else '.' :: digits.drop 1
  digits.take 1 ++ point ++ 'e' :: exponentText e

/-- A text of digits without zeros at its end, and without a point that is then at its end. -/
def dropFinalZeros (text : Chars) : Chars :=
  if text.contains '.' then
    ((text.reverse.dropWhile (· == '0')).dropWhile (· == '.')).reverse
  else text

/-- A fraction with so many significant digits, in the shorter of the two forms. -/
def generalText (num den precision : Nat) (alternate : Bool) : Chars :=
  let p := max precision 1
  let (e, _) := roundedDigits num den (p - 1)
  if -4 ≤ e && e < (p : Int) then
    let text := fixedText num den ((p : Int) - 1 - e).toNat alternate
    if alternate then text else dropFinalZeros text
  else
    let text := scientificText num den (p - 1) alternate
    if alternate then text
    else
      let mantissa := text.takeWhile (· != 'e')
      dropFinalZeros mantissa ++ text.drop mantissa.length

/-- Nat division by a power of two that may be negative, rounded. -/
def shiftRounded (num den : Nat) (power : Int) : Nat :=
  if 0 ≤ power then roundQuotient num (den * Nat.pow 2 power.toNat)
  else roundQuotient (num * Nat.pow 2 (-power).toNat) den

/-- A fraction rounded to so many binary digits. -/
def roundToBits (bits num den : Nat) : Nat × Nat :=
  if num = 0 then (0, 1)
  else
    let guess : Int := (Nat.log2 num : Int) - Nat.log2 den - bits
    let fits (e : Int) : Bool := shiftRounded num den e < Nat.pow 2 bits
    let e := if fits guess then guess else if fits (guess + 1) then guess + 1 else guess + 2
    let m := shiftRounded num den e
    if 0 ≤ e then (m * Nat.pow 2 e.toNat, 1) else (m, Nat.pow 2 (-e).toNat)

namespace Quantity

def ofInt (n : Int) : Quantity := .finite (n < 0) n.natAbs 1

/-- The digits with an exponent in front of a text: the fraction that they spell, and what
follows. -/
def readDecimal (text : Chars) : Option ((Nat × Nat) × Chars) :=
  let whole := text.takeWhile Char.isDigit
  let text := text.drop whole.length
  let (places, text) := match text with
    | '.' :: after =>
      let digits := after.takeWhile Char.isDigit
      if whole.isEmpty && digits.isEmpty then ([], text) else (digits, after.drop digits.length)
    | _ => ([], text)
  if whole.isEmpty && places.isEmpty then none
  else
    let mantissa := Chars.digitsValue (whole ++ places)
    let (exponent, text) : Int × Chars := match text with
      | e :: after =>
        if e == 'e' || e == 'E' then
          let (sign, digits) := match after with
            | '-' :: rest => ((-1 : Int), rest)
            | '+' :: rest => (1, rest)
            | rest => (1, rest)
          let shown := digits.takeWhile Char.isDigit
          if shown.isEmpty then (0, text)
          else (sign * Chars.digitsValue (shown.take 5), digits.drop shown.length)
        else (0, text)
      | [] => (0, text)
    let power := exponent - places.length
    some (if 0 ≤ power then (mantissa * Nat.pow 10 power.toNat, 1)
      else (mantissa, Nat.pow 10 (-power).toNat), text)

/-- The digits in base 16, with an exponent of two, in front of a text: the fraction that they spell, and
what follows. -/
def readHex (text : Chars) : Option ((Nat × Nat) × Chars) :=
  let (whole, count) := Chars.leadingNumber 16 text 0 0
  let after := text.drop count
  let (mantissa, places, after) : Nat × Nat × Chars := match after with
    | '.' :: digits =>
      let (value, places) := Chars.leadingNumber 16 digits whole 0
      if count + places = 0 then (0, 0, after) else (value, places, digits.drop places)
    | _ => (whole, 0, after)
  if count + places = 0 then none
  else
    let (exponent, after) : Int × Chars := match after with
      | e :: rest =>
        if e == 'p' || e == 'P' then
          let (sign, digits) := match rest with
            | '-' :: rest => ((-1 : Int), rest)
            | '+' :: rest => (1, rest)
            | rest => (1, rest)
          let shown := digits.takeWhile Char.isDigit
          if shown.isEmpty then (0, after)
          else (sign * Chars.digitsValue (shown.take 5), digits.drop shown.length)
        else (0, after)
      | [] => (0, after)
    let power := exponent - 4 * places
    some (if 0 ≤ power then (mantissa * Nat.pow 2 power.toNat, 1)
      else (mantissa, Nat.pow 2 (-power).toNat), after)

/-- What follows a word that is no number, which may have a note in parentheses. -/
def dropNote (text : Chars) : Chars :=
  match text with
  | '(' :: rest =>
    match rest.dropWhile Chars.isNameChar with
    | ')' :: rest => rest
    | _ => text
  | _ => text

/-- The quantity at the front of a text, rounded to so many binary digits, and what follows. -/
def read (bits : Nat) (text : Chars) : Option (Quantity × Chars) :=
  let text := text.dropWhile Chars.isSpace
  let (negative, text) := match text with
    | '-' :: rest => (true, rest)
    | '+' :: rest => (false, rest)
    | rest => (false, rest)
  let word := (text.takeWhile Char.isAlpha).map Char.toLower
  if Chars.startsWith word (str "infinity") then some (.infinite negative, text.drop 8)
  else if Chars.startsWith word (str "inf") then some (.infinite negative, text.drop 3)
  else if Chars.startsWith word (str "nan") then some (.notANumber, dropNote (text.drop 3))
  else
    let hex := match text with
      | '0' :: x :: digits => if x == 'x' || x == 'X' then readHex digits else none
      | _ => none
    match hex with
    | some ((num, den), rest) =>
      let (num, den) := roundToBits bits num den
      some (.finite negative num den, rest)
    | none => ofDecimal negative text
where
  /-- The quantity that starts with digits in decimal. -/
  ofDecimal (negative : Bool) (text : Chars) : Option (Quantity × Chars) :=
    (readDecimal text).map fun ((num, den), rest) =>
      let (num, den) := roundToBits bits num den
      (.finite negative num den, rest)

end Quantity

end ProductLine.Shell
