/- # Texts of bytes — what programs exchange

Programs exchange bytes and cut them as they like, so throughout the shell a
text is a list of characters below 256, one for each byte.  Here such texts
meet strings, numbers and lines.
-/
import ProductLine.Text.Lines

namespace ProductLine.Shell

abbrev Chars := List Char

namespace Chars

def ofBytes (bytes : List UInt8) : Chars :=
  bytes.map fun b => Char.ofNat b.toNat

def toBytes (text : Chars) : List UInt8 :=
  text.map fun c => c.toNat.toUInt8

/-- So many bytes of a sequence before a place, in front of a text. -/
def sliceBefore (bytes : ByteArray) : (count place : Nat) → Chars → Chars
  | 0, _, text => text
  | count + 1, place, text =>
    sliceBefore bytes count (place - 1)
      (Char.ofNat ((bytes[place - 1]?).getD 0).toNat :: text)

/-- The bytes of a sequence from one place to another, or to its end, as characters. -/
def slice (bytes : ByteArray) (start stop : Nat) : Chars :=
  sliceBefore bytes (min stop bytes.size - start) (min stop bytes.size) []

def appendTo (bytes : ByteArray) (text : Chars) : ByteArray :=
  text.foldl (fun bytes c => bytes.push c.toNat.toUInt8) bytes

def ofString (s : String) : Chars :=
  ofBytes (Text.encode s.toList)

/-- The string that the bytes spell in UTF-8; if they spell none, a character for each byte. -/
def toName (text : Chars) : String :=
  String.ofList ((Text.decode? (toBytes text)).getD text)

def isSpace (c : Char) : Bool :=
  c == ' ' || ('\t' ≤ c && c ≤ '\x0d')

def isNameChar (c : Char) : Bool :=
  c.isAlphanum || c == '_'

/-- A character with which a name of the shell begins. -/
def isNameStart (c : Char) : Bool :=
  c.isAlpha || c == '_'

def isName : Chars → Bool
  | [] => false
  | c :: rest => isNameStart c && rest.all isNameChar

/-! ## Numbers -/

def digitsValue (digits : Chars) : Nat :=
  digits.foldl (fun n c => 10 * n + (c.toNat - '0'.toNat)) 0

def toNat? (text : Chars) : Option Nat :=
  if text.isEmpty || !text.all Char.isDigit then none else some (digitsValue text)

/-- The number that a text of digits spells, which may have a sign. -/
def toInt? : Chars → Option Int
  | '-' :: digits => (toNat? digits).map fun n => -(n : Int)
  | '+' :: digits => (toNat? digits).map Int.ofNat
  | digits => (toNat? digits).map Int.ofNat

def digitValue? (c : Char) : Option Nat :=
  if c.isDigit then some (c.toNat - '0'.toNat)
  else if 'a' ≤ c && c ≤ 'z' then some (c.toNat - 'a'.toNat + 10)
  else if 'A' ≤ c && c ≤ 'Z' then some (c.toNat - 'A'.toNat + 10)
  else none

/-- The digits of a base at the front of a text, as a number and how many there are. -/
def leadingNumber (base : Nat) : Chars → Nat → Nat → Nat × Nat
  | [], value, count => (value, count)
  | c :: rest, value, count =>
    match digitValue? c with
    | some d => if d < base then leadingNumber base rest (value * base + d) (count + 1)
      else (value, count)
    | none => (value, count)

def ofNat (n : Nat) : Chars := Nat.toDigits 10 n

/-- A number in decimal, with its sign if it is negative. -/
def ofInt (n : Int) : Chars :=
  if n < 0 then '-' :: ofNat n.natAbs else ofNat n.natAbs

/-- The number that 64 bits make of an integer, with a sign; small ones are as they were. -/
def wrap (n : Int) : Int :=
  if -2147483648 ≤ n ∧ n < 2147483648 then n else Int.bmod n 18446744073709551616

/-! ## Lines and words -/

/-- The lines of an input; what follows the last line feed is a line if it is not empty. -/
def lines (text : Chars) : List Chars :=
  let pieces := text.splitOn '\n'
  match pieces.getLast? with
  | some [] => pieces.dropLast
  | _ => pieces

def unlines (lines : List Chars) : Chars :=
  lines.flatMap (· ++ ['\n'])

/-- The pieces of an input, each with the mark that ends it; the last one may lack it. -/
def pieces (mark : Char) (text : Chars) : List Chars :=
  let parts := text.splitOn mark
  let ended := parts.dropLast.map (· ++ [mark])
  match parts.getLast? with
  | none | some [] => ended
  | some last => ended ++ [last]

def dropFinalFeeds (text : Chars) : Chars :=
  (text.reverse.dropWhile (· == '\n')).reverse

def words (text : Chars) : List Chars :=
  (text.splitOnP isSpace).filter (!·.isEmpty)

def startsWith (text front : Chars) : Bool :=
  front.isPrefixOf text

/-- A text in single quotation marks, as messages have it. -/
def quoted (text : Chars) : Chars :=
  '\'' :: text ++ ['\'']

/-- A text in which nothing is longer than `width`, filled up with blanks in front. -/
def padLeft (width : Nat) (text : Chars) : Chars :=
  List.replicate (width - text.length) ' ' ++ text

def padRight (width : Nat) (text : Chars) : Chars :=
  text ++ List.replicate (width - text.length) ' '

def compare : Chars → Chars → Ordering
  | [], [] => .eq
  | [], _ => .lt
  | _, [] => .gt
  | a :: as, b :: bs =>
    if a.toNat < b.toNat then .lt else if b.toNat < a.toNat then .gt else compare as bs

def le (a b : Chars) : Bool :=
  (compare a b).isLE

def sort (texts : List Chars) : List Chars :=
  texts.mergeSort le

end Chars

def str (s : String) : Chars := s.toList

def orElse (text other : Chars) : Chars :=
  if text.isEmpty then other else text

end ProductLine.Shell
