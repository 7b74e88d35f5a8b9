/- # Formats — fields, escapes, and the text that a format makes of its arguments

A format is printed again and again until its arguments are used up.  Each
dialect has its own wording of what is wrong with an argument, and its own
choice of escapes.
-/
import ProductLine.Shell.Calendar.Format
import ProductLine.Shell.Number

namespace ProductLine.Shell

/-! ## Fields -/

/-- How a field is printed. -/
structure Field where
  left : Bool := false
  zero : Bool := false
  plus : Bool := false
  space : Bool := false
  alternate : Bool := false
  width : Nat := 0
  precision : Option Nat := none

namespace Field

def pad (f : Field) (text : Chars) : Chars :=
  if f.left then Chars.padRight f.width text else Chars.padLeft f.width text

/-- What stands before the digits of a number that is or is not negative. -/
def sign (f : Field) (negative : Bool) : Chars :=
  if negative then ['-'] else if f.plus then ['+'] else if f.space then [' '] else []

def number (f : Field) (zero : Bool) (front digits : Chars) : Chars :=
  if zero && f.zero && !f.left then front ++ padZeros (f.width - front.length) digits
  else f.pad (front ++ digits)

/-- The digits of an integer, at least as many as the precision asks for. -/
def integerDigits (f : Field) (base : Nat) (n : Nat) : Chars :=
  match f.precision with
  | some 0 => if n = 0 then [] else Nat.toDigits base n
  | some p => padZeros p (Nat.toDigits base n)
  | none => Nat.toDigits base n

def signed (f : Field) (n : Int) : Chars :=
  f.number f.precision.isNone (f.sign (n < 0)) (f.integerDigits 10 n.natAbs)

/-- An integer without a sign, in base 8, 10 or 16. -/
def unsigned (f : Field) (kind : Char) (n : Nat) : Chars :=
  let digits := match kind with
    | 'o' =>
      let digits := f.integerDigits 8 n
      if f.alternate && digits.head? != some '0' then '0' :: digits else digits
    | 'x' => f.integerDigits 16 n
    | 'X' => (f.integerDigits 16 n).map Char.toUpper
    | _ => f.integerDigits 10 n
  let front := if f.alternate && n ≠ 0 && (kind == 'x' || kind == 'X') then ['0', kind] else []
  f.number f.precision.isNone front digits

def real (f : Field) (kind : Char) (q : Quantity) : Chars :=
  let raise (text : Chars) : Chars := if kind.isUpper then text.map Char.toUpper else text
  match q with
  | .notANumber => f.pad (raise (str "nan"))
  | .infinite negative => f.pad (raise (f.sign negative ++ str "inf"))
  | .finite negative num den =>
    let p := f.precision.getD 6
    let digits := match kind.toLower with
      | 'e' => scientificText num den p f.alternate
      | 'g' => generalText num den p f.alternate
      | _ => fixedText num den p f.alternate
    f.number true (f.sign negative) (raise digits)

def text (f : Field) (s : Chars) : Chars :=
  f.pad (f.precision.elim s s.take)

end Field

/-! ## Escapes -/

structure Escapes where
  zeroOctal : Bool
  plainOctal : Bool
  hex : Bool := false
  quotes : Bool := false
  stop : Bool := false
  escapeChar : Bool := true

/-- The character that a letter stands for after a backslash. -/
def Escapes.letter? (e : Escapes) : Char → Option Char
  | 'n' => some '\n'
  | 't' => some '\t'
  | 'r' => some '\r'
  | 'a' => some '\x07'
  | 'b' => some '\x08'
  | 'f' => some '\x0c'
  | 'v' => some '\x0b'
  | '\\' => some '\\'
  | 'e' => if e.escapeChar then some '\x1b' else none
  | '"' => if e.quotes then some '"' else none
  | '\'' => if e.quotes then some '\'' else none
  | '?' => if e.quotes then some '?' else none
  | _ => none

/-- The character of the octal digits in front, at most `most` of them, and what follows. -/
def octalChar (most : Nat) (text : Chars) : Char × Chars :=
  let (value, count) := Chars.leadingNumber 8 (text.take most) 0 0
  (Char.ofNat (value % 256), text.drop count)

/-- A character given by its number; one that is no byte by itself is shown by its number. -/
def numberedChar (n : Nat) : Chars :=
  let hex (width : Nat) : Chars :=
    let digits := (Nat.toDigits 16 n).map Char.toUpper
    List.replicate (width - digits.length) '0' ++ digits
  if n < 128 then [Char.ofNat n]
  else if n < 65536 then '\\' :: 'u' :: hex 4
  else '\\' :: 'U' :: hex 8

/-- What an escape stands for and what follows it; the text begins behind the backslash.  Nothing
comes of an escape that stops the output. -/
def Escapes.decode (e : Escapes) (text : Chars) : Option (Chars × Chars) :=
  match text with
  | [] => some (['\\'], [])
  | c :: rest =>
    match e.letter? c with
    | some d => some ([d], rest)
    | none =>
      let isOctal := '0' ≤ c && c ≤ '7'
      if c == 'c' && e.stop then none
      else if c == '0' && e.zeroOctal then
        let (d, rest) := octalChar 3 rest
        some ([d], rest)
      else if isOctal && e.plainOctal then
        let (d, rest) := octalChar 3 text
        some ([d], rest)
      else if c == 'x' && e.hex then
        let (value, count) := Chars.leadingNumber 16 (rest.take 2) 0 0
        if count = 0 then some (['\\', 'x'], rest)
        else some ([Char.ofNat value], rest.drop count)
      else if (c == 'u' || c == 'U') && e.hex then
        let (value, count) := Chars.leadingNumber 16 (rest.take (if c == 'u' then 4 else 8)) 0 0
        if count = 0 then some (['\\', c], rest)
        else some (numberedChar value, rest.drop count)
      else some (['\\', c], rest)

/-- A text with its escapes replaced; the flag says whether one of them has stopped it. -/
def Escapes.replace (e : Escapes) : (fuel : Nat) → Chars → Chars × Bool
  | 0, text => (text, false)
  | _, [] => ([], false)
  | fuel + 1, '\\' :: rest =>
    match e.decode rest with
    | none => ([], true)
    | some (front, rest) =>
      let (more, stopped) := e.replace fuel rest
      (front ++ more, stopped)
  | fuel + 1, c :: rest =>
    let (more, stopped) := e.replace fuel rest
    (c :: more, stopped)

/-- A text with its escapes replaced, and whether one of them has stopped it. -/
def Escapes.apply (e : Escapes) (text : Chars) : Chars × Bool :=
  e.replace (text.length + 1) text

/-! ## Formats -/

/-- The dialects: those of the two shells, and that of the program by itself. -/
inductive Dialect where
  | posix
  | bash
  | program
deriving DecidableEq

namespace Dialect

def formatEscapes : Dialect → Escapes
  | posix => { zeroOctal := false, plainOctal := true }
  | bash => { zeroOctal := false, plainOctal := true, hex := true, quotes := true }
  | program =>
    { zeroOctal := false, plainOctal := true, hex := true, quotes := true, stop := true }

def argumentEscapes : Dialect → Escapes
  | posix => { zeroOctal := true, plainOctal := true, stop := true }
  | bash => { zeroOctal := true, plainOctal := true, hex := true, quotes := true, stop := true }
  | program => { zeroOctal := true, plainOctal := true, hex := true, quotes := true, stop := true }

def bits : Dialect → Nat
  | posix => 53
  | bash | program => 64

/-- What the extended dialect calls a number that it cannot read, by the front of it. -/
def invalidNumber (argument : Chars) : Chars :=
  let kind := match argument with
    | '0' :: 'x' :: _ => "hex "
    | '0' :: c :: _ => if c.isDigit then "octal " else ""
    | _ => ""
  argument ++ str ": invalid " ++ str kind ++ str "number"

/-- The complaint about an argument that is no number. -/
def notNumeric (d : Dialect) (argument : Chars) : Chars :=
  match d with
  | posix => argument ++ str ": expected numeric value"
  | bash => invalidNumber argument
  | program => Chars.quoted argument ++ str ": expected a numeric value"

/-- The complaint about an argument that is a number only in front. -/
def notWhole (d : Dialect) (argument : Chars) : Chars :=
  match d with
  | posix => argument ++ str ": not completely converted"
  | bash => invalidNumber argument
  | program => Chars.quoted argument ++ str ": value not completely converted"

def tooLarge (d : Dialect) (argument : Chars) : Chars :=
  match d with
  | posix => argument ++ str ": Numerical result out of range"
  | bash => str "warning: " ++ argument ++ str ": Numerical result out of range"
  | program => Chars.quoted argument ++ str ": Numerical result out of range"

end Dialect

/-- What has come of a format: the pieces of the output and the complaints, both the latest first,
the arguments left and how many were used, and how it stands.  Times are shown by the clocks of a
zone. -/
structure Formatting where
  dialect : Dialect
  zone : Calendar.Zone
  written : List Chars := []
  complained : List Chars := []
  arguments : List Chars
  used : Nat := 0
  failed : Bool := false
  stopped : Bool := false
  aborted : Bool := false

namespace Formatting

def output (s : Formatting) : Chars := s.written.reverse.flatten

def complaints (s : Formatting) : List Chars := s.complained.reverse

def emit (s : Formatting) (text : Chars) : Formatting :=
  { s with written := text :: s.written }

def complain (s : Formatting) (text : Chars) : Formatting :=
  { s with complained := text :: s.complained, failed := true }

def next? (s : Formatting) : Option Chars × Formatting :=
  match s.arguments with
  | [] => (none, s)
  | a :: rest => (some a, { s with arguments := rest, used := s.used + 1 })

/-- The integer in front of a text, in the base that its spelling says, and what follows. -/
def readInteger (text : Chars) : Option (Int × Chars) :=
  let body := text.dropWhile Chars.isSpace
  let (sign, body) := match body with
    | '-' :: rest => ((-1 : Int), rest)
    | '+' :: rest => (1, rest)
    | rest => (1, rest)
  let decimal (base : Nat) (digits : Chars) : Option (Int × Chars) :=
    let (value, count) := Chars.leadingNumber base digits 0 0
    if count = 0 then none else some (sign * value, digits.drop count)
  match body with
  | '0' :: x :: digits =>
    if x == 'x' || x == 'X' then
      match decimal 16 digits with
      | some found => some found
      | none => some (0, x :: digits)
    else decimal 8 body
  | _ => decimal 10 body

/-- The value of an argument that begins with a quotation mark is that of its next character. -/
def quotedValue? : Chars → Option Nat
  | q :: rest =>
    if q == '"' || q == '\'' then some ((rest.head?.map Char.toNat).getD 0) else none
  | [] => none

/-- The integer that the next argument spells; `low` and `high` are its limits. -/
def integer (low high : Int) (s : Formatting) : Int × Formatting :=
  match s.next? with
  | (none, s) => (0, s)
  | (some argument, s) =>
    match quotedValue? argument with
    | some n => (n, s)
    | none =>
      if argument.isEmpty then (0, s)
      else
        match readInteger argument with
        | none => (0, s.complain (s.dialect.notNumeric argument))
        | some (n, rest) =>
          let s := if rest.isEmpty then s else s.complain (s.dialect.notWhole argument)
          let limited : Formatting :=
            { s.complain (s.dialect.tooLarge argument) with
              failed := s.failed || s.dialect != .bash }
          if n < low then (low, limited) else if high < n then (high, limited) else (n, s)

def maxSigned : Int := 9223372036854775807

def maxUnsigned : Int := 18446744073709551615

/-- The fraction that the next argument spells. -/
def quantity (s : Formatting) : Quantity × Formatting :=
  match s.next? with
  | (none, s) => (.ofInt 0, s)
  | (some argument, s) =>
    match quotedValue? argument with
    | some n => (.ofInt n, s)
    | none =>
      if argument.isEmpty then (.ofInt 0, s)
      else
        match Quantity.read s.dialect.bits argument with
        | none => (.ofInt 0, s.complain (s.dialect.notNumeric argument))
        | some (q, rest) =>
          (q, if rest.isEmpty then s else s.complain (s.dialect.notWhole argument))

/-- The number of a width or precision: digits, or the next argument for a star. -/
def size (s : Formatting) (text : Chars) : Option Int × Chars × Formatting :=
  match text with
  | '*' :: rest =>
    let (n, s) := s.integer (-maxSigned) maxSigned
    (some n, rest, s)
  | _ =>
    let digits := text.takeWhile Char.isDigit
    (if digits.isEmpty then none else some (Chars.digitsValue digits), text.drop digits.length, s)

/-- A character as it is written between quotation marks with escapes. -/
def escapedChar (c : Char) : Chars :=
  match c with
  | '\x07' => str "\\a"
  | '\x08' => str "\\b"
  | '\t' => str "\\t"
  | '\n' => str "\\n"
  | '\x0b' => str "\\v"
  | '\x0c' => str "\\f"
  | '\r' => str "\\r"
  | '\x1b' => str "\\E"
  | '\\' => str "\\\\"
  | '\'' => str "\\'"
  | c =>
    if 32 ≤ c.toNat && c.toNat < 127 then [c]
    else '\\' :: [c.toNat / 64, c.toNat / 8 % 8, c.toNat % 8].map fun d => Char.ofNat (d + 48)

/-- A text in quotation for a shell, if it needs any; `first` says that nothing is before it, and
`behind` is the character before. -/
def backslashed (first : Bool) (behind : Char) : Chars → Chars
  | [] => []
  | c :: rest =>
    let isPlain := c.isAlphanum || "_-./:=@%+".toList.contains c || (c == '#' && !first) ||
      (c == '~' && !first && behind != ':' && behind != '=')
    (if isPlain then [c] else ['\\', c]) ++ backslashed false c rest

def needsEscapes (text : Chars) : Bool := text.any fun c => c.toNat < 32 || 126 < c.toNat

def withEscapes (text : Chars) : Chars := str "$'" ++ text.flatMap escapedChar ++ ['\'']

def shellQuoted (text : Chars) : Chars :=
  if text.isEmpty then str "''"
  else if needsEscapes text then withEscapes text
  else backslashed true ' ' text

def abort (s : Formatting) (text : Chars) : Formatting :=
  { s.complain text with stopped := true, aborted := true }

def convert (s : Formatting) (f : Field) (kind : Char) (spelling : Chars) : Formatting :=
  match kind with
  | 'd' | 'i' =>
    let (n, s) := s.integer (-maxSigned - 1) maxSigned
    s.emit (f.signed n)
  | 'u' | 'o' | 'x' | 'X' =>
    let (n, s) := s.integer (-maxUnsigned) maxUnsigned
    s.emit (f.unsigned kind (n % 18446744073709551616).toNat)
  | 'e' | 'E' | 'f' | 'F' | 'g' | 'G' =>
    let (q, s) := s.quantity
    s.emit (f.real kind q)
  | 'c' =>
    let (argument, s) := s.next?
    s.emit (f.pad [(argument.getD []).headD '\x00'])
  | 's' =>
    let (argument, s) := s.next?
    s.emit (f.text (argument.getD []))
  | 'b' =>
    let (argument, s) := s.next?
    let (text, stopped) := s.dialect.argumentEscapes.apply (argument.getD [])
    { s.emit (f.text text) with stopped := stopped }
  | 'q' =>
    if s.dialect == .posix then s.abort (spelling ++ str ": invalid directive")
    else
      let (argument, s) := s.next?
      s.emit (f.pad (shellQuoted (argument.getD [])))
  | _ =>
    s.abort (match s.dialect with
      | .posix => spelling ++ str ": invalid directive"
      | .bash => str "\x60" ++ [kind] ++ str "': invalid format character"
      | .program => spelling ++ str ": invalid conversion specification")

/-- The format of a time in parentheses at the front of a text, and what follows the letter behind
it. -/
def timeFormat? (text : Chars) : Option (Chars × Chars) :=
  match text with
  | '(' :: rest =>
    let format := rest.takeWhile (· != ')')
    match rest.drop format.length with
    | ')' :: 'T' :: rest => some (format, rest)
    | _ => none
  | _ => none

/-- Prints the time that the next argument says, or the present one. -/
def time (s : Formatting) (f : Field) (format : Chars) : Formatting :=
  let isNow := s.arguments.isEmpty
  let (n, s) := s.integer (-maxSigned - 1) maxSigned
  let seconds : Int := if isNow || n == -1 || n == -2 then Calendar.epoch else n
  let format := if format.isEmpty then str "%X" else format
  s.emit (f.text (Calendar.text false (Calendar.momentIn s.zone seconds 0) format))

/-- Prints the field whose percent sign has been read, and says what follows. -/
def directive (s : Formatting) (text : Chars) : Formatting × Chars :=
  let flags := text.takeWhile "-+ #0".toList.contains
  let after := text.drop flags.length
  let (width, after, s) := s.size after
  let (precision, after, s) : Option Int × Chars × Formatting := match after with
    | '.' :: rest =>
      let (p, rest, s) := s.size rest
      (some (p.getD 0), rest, s)
    | rest => (none, rest, s)
  let after := if s.dialect == .posix then after
    else after.dropWhile "hlLjzt".toList.contains
  let width := width.getD 0
  let f : Field :=
    { left := flags.contains '-' || width < 0, zero := flags.contains '0'
      plus := flags.contains '+', space := flags.contains ' ', alternate := flags.contains '#'
      width := width.natAbs
      precision := precision.bind fun p => if p < 0 then none else some p.toNat }
  match after, if s.dialect == .bash then timeFormat? after else none with
  | _, some (format, rest) => (s.time f format, rest)
  | [], none =>
    (s.abort (match s.dialect with
      | .posix => str "missing format character"
      | .bash => Chars.ofString "\x60" ++ '%' :: text ++ str "': missing format character"
      | .program => '%' :: text ++ str ": invalid conversion specification"), [])
  | kind :: rest, none => (s.convert f kind ('%' :: text.take (text.length - rest.length)), rest)

def pass : (fuel : Nat) → Chars → Formatting → Formatting
  | 0, _, s => s
  | _, [], s => s
  | fuel + 1, '%' :: '%' :: rest, s => pass fuel rest (s.emit ['%'])
  | fuel + 1, '%' :: rest, s =>
    let (s, rest) := s.directive rest
    if s.stopped then s else pass fuel rest s
  | fuel + 1, '\\' :: rest, s =>
    match s.dialect.formatEscapes.decode rest with
    | none => { s with stopped := true }
    | some (front, rest) => pass fuel rest (s.emit front)
  | fuel + 1, c :: rest, s => pass fuel rest (s.emit [c])

/-- Passes of a format until the arguments are used up. -/
def passes (format : Chars) : (fuel : Nat) → Formatting → Formatting
  | 0, s => s
  | fuel + 1, s =>
    let after := pass (format.length + 1) format s
    if after.stopped || after.arguments.isEmpty || after.used == s.used then after
    else passes format fuel after

end Formatting

/-- What a format makes of its arguments, with times as the clocks of a zone show them. -/
def formatWith (dialect : Dialect) (zone : Calendar.Zone) (format : Chars)
    (arguments : List Chars) : Formatting :=
  Formatting.passes format (arguments.length + 1)
    { dialect := dialect, zone := zone, arguments := arguments }

end ProductLine.Shell
