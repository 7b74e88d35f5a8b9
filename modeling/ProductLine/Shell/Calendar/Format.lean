/- # Formats of times — moments, and fields behind percent signs

A moment is a time in seconds with the offset of the clocks that show it.  It
is written in a format whose fields are letters behind percent signs; marks
and a width before the letter say how a field is filled up.
-/
import ProductLine.Shell.Calendar.Zone

namespace ProductLine.Shell.Calendar

/-- A moment: the seconds since 1970 and the nanoseconds behind them, and the offset of the clocks
that show it. -/
structure Moment where
  seconds : Int
  nanos : Nat := 0
  offset : Offset := universal

namespace Moment

/-- The time that the clocks show, in seconds since 1970. -/
def shown (t : Moment) : Int := t.seconds + t.offset.ahead

/-- The day that the clocks show, counted from 1970 on. -/
def days (t : Moment) : Int := t.shown / daySeconds

def dayTime (t : Moment) : Nat := (t.shown % daySeconds).toNat

def year (t : Moment) : Int := (civil t.days).1

def month (t : Moment) : Nat := (civil t.days).2.1

def day (t : Moment) : Nat := (civil t.days).2.2

def hour (t : Moment) : Nat := t.dayTime / 3600

def weekDay (t : Moment) : Nat := weekDayOf t.days

def yearDay (days : Int) : Nat := (days - daysToMonth (civil days).1 1).toNat

/-- A week of the year and the year that it belongs to; the week with the first Thursday is the
first one. -/
def week (t : Moment) : Nat × Int :=
  let thursday := t.days + 3 - ((t.weekDay + 6) % 7 : Nat)
  (yearDay thursday / 7 + 1, (civil thursday).1)

end Moment

/-! ## Fields -/

/-- What the letter of a field stands for: a number to be filled up to a width with a mark, or a
text. -/
inductive Entry where
  | number (n : Int) (width : Nat) (mark : Char)
  | text (s : Chars)

/-- How a field is asked for: the marks before its letter, and a width. -/
structure Wish where
  marks : Chars := []
  width : Option Nat := none

def wishMarks : Chars := "-_0+^#".toList

/-- A number filled up to a width; a sign stays in front. -/
def filled (n : Int) (width : Nat) (mark : Char) : Chars :=
  let sign := if n < 0 then ['-'] else []
  let digits := Chars.ofNat n.natAbs
  let room := List.replicate (width - sign.length - digits.length) mark
  if mark == '0' then sign ++ room ++ digits else room ++ sign ++ digits

def Entry.shown (w : Wish) (letter : Char) : Entry → Chars
  | .number n width mark =>
    let width := w.width.getD width
    match (w.marks.filter fun c => c != '^' && c != '#').getLast? with
    | some '-' => filled n 0 mark
    | some '_' => filled n width ' '
    | some _ => filled n width '0'
    | none => filled n width mark
  | .text s =>
    let lowers := w.marks.contains '#' && (letter == 'p' || letter == 'Z')
    let raises := w.marks.contains '^' || w.marks.contains '#' && "aAbBh".toList.contains letter
    let s := if lowers then s.map Char.toLower else if raises then s.map Char.toUpper else s
    let mark := if w.marks.contains '0' then '0' else ' '
    if w.marks.contains '-' then s
    else List.replicate (w.width.getD 0 - s.length) mark ++ s

/-- An offset in hours and minutes, with colons between as many parts as there are. -/
def offsetText (colons : Nat) (ahead : Int) : Chars :=
  let n := ahead.natAbs
  let two (n : Nat) : Chars := filled n 2 '0'
  let colon := if colons = 0 then [] else [':']
  (if ahead < 0 then '-' else '+') :: two (n / 3600) ++ colon ++ two (n / 60 % 60) ++
    (if colons = 2 then ':' :: two (n % 60) else [])

def entryOf (t : Moment) (letter : Char) : Option Entry :=
  let two (n : Int) : Option Entry := some (.number n 2 '0')
  let name (names : List String) (i : Nat) : Chars := (names.getD i "").toList
  let twelve := (t.hour + 11) % 12 + 1
  let yearDay := Moment.yearDay t.days
  match letter with
  | 'Y' => some (.number t.year 0 '0')
  | 'C' => two (t.year / 100)
  | 'y' => two (t.year % 100)
  | 'm' => two t.month
  | 'd' => two t.day
  | 'e' => some (.number t.day 2 ' ')
  | 'H' => two t.hour
  | 'I' => two twelve
  | 'k' => some (.number t.hour 2 ' ')
  | 'l' => some (.number twelve 2 ' ')
  | 'M' => two ((t.dayTime / 60 % 60 : Nat) : Int)
  | 'S' => two ((t.dayTime % 60 : Nat) : Int)
  | 's' => some (.number t.seconds 0 '0')
  | 'j' => some (.number (yearDay + 1) 3 '0')
  | 'u' => some (.number ((t.weekDay + 6) % 7 + 1 : Nat) 0 '0')
  | 'w' => some (.number t.weekDay 0 '0')
  | 'U' => two ((yearDay + 7 - t.weekDay) / 7 : Nat)
  | 'W' => two ((yearDay + 7 - (t.weekDay + 6) % 7) / 7 : Nat)
  | 'V' => two t.week.1
  | 'G' => some (.number t.week.2 0 '0')
  | 'g' => two (t.week.2 % 100)
  | 'B' => some (.text (name monthNames (t.month - 1)))
  | 'b' | 'h' => some (.text ((name monthNames (t.month - 1)).take 3))
  | 'A' => some (.text (name dayNames t.weekDay))
  | 'a' => some (.text ((name dayNames t.weekDay).take 3))
  | 'p' => some (.text (str (if t.hour < 12 then "AM" else "PM")))
  | 'P' => some (.text (str (if t.hour < 12 then "am" else "pm")))
  | 'Z' => some (.text t.offset.name)
  | 'z' => some (.text (offsetText 0 t.offset.ahead))
  | 'n' => some (.text ['\n'])
  | 't' => some (.text ['\t'])
  | '%' => some (.text ['%'])
  | _ => none

def combined? (letter : Char) : Option String :=
  match letter with
  | 'F' => some "%Y-%m-%d"
  | 'T' | 'X' => some "%H:%M:%S"
  | 'D' | 'x' => some "%m/%d/%y"
  | 'R' => some "%H:%M"
  | 'r' => some "%I:%M:%S %p"
  | 'c' => some "%a %b %e %H:%M:%S %Y"
  | _ => none

/-- A format of simple fields without marks. -/
def simpleText (t : Moment) : Chars → Chars
  | '%' :: c :: rest =>
    ((entryOf t c).map (Entry.shown {} c)).getD ['%', c] ++ simpleText t rest
  | c :: rest => c :: simpleText t rest
  | [] => []

/-- The further fields of the program that prints dates: parts of a second, quarters, and offsets
with colons.  The letter is given with the colons before it. -/
def furtherEntryOf (t : Moment) (w : Wish) (letter : Chars) : Option Entry :=
  match letter with
  | ['N'] => some (.text ((filled t.nanos 9 '0').take (w.width.getD 9)))
  | ['q'] => some (.number ((t.month + 2) / 3 : Nat) 0 '0')
  | [':', 'z'] => some (.text (offsetText 1 t.offset.ahead))
  | [':', ':', 'z'] => some (.text (offsetText 2 t.offset.ahead))
  | _ => none

/-- The field behind a percent sign, and what follows; nothing if there is none. -/
def field? (isDate : Bool) (t : Moment) (text : Chars) : Option (Chars × Chars) :=
  let marks := text.takeWhile wishMarks.contains
  let text := text.drop marks.length
  let digits := text.takeWhile Char.isDigit
  let text := text.drop digits.length
  let w : Wish :=
    { marks := marks, width := if digits.isEmpty then none else some (Chars.digitsValue digits) }
  let text := match text with
    | c :: d :: rest => if c == 'E' || c == 'O' then d :: rest else c :: d :: rest
    | text => text
  let colons := text.takeWhile (· == ':')
  match text.drop colons.length with
  | [] => none
  | letter :: rest =>
    let further := if isDate then furtherEntryOf t w (colons ++ [letter]) else none
    let entry := match further with
      | some entry => some entry
      | none =>
        if !colons.isEmpty then none
        else
          match combined? letter with
          | some format => some (Entry.text (simpleText t (str format)))
          | none => entryOf t letter
    entry.map fun entry => (entry.shown w letter, rest)

/-- A moment in a format; `isDate` says that it has the fields of the program that prints dates.
`fuel` bounds the format. -/
def textWithin (isDate : Bool) (t : Moment) : (fuel : Nat) → Chars → Chars
  | 0, _ => []
  | _, [] => []
  | fuel + 1, '%' :: rest =>
    match field? isDate t rest with
    | some (shown, rest) => shown ++ textWithin isDate t fuel rest
    | none => '%' :: textWithin isDate t fuel rest
  | fuel + 1, c :: rest => c :: textWithin isDate t fuel rest

/-- A moment in a format; `isDate` says that it has the fields of the program that prints dates. -/
def text (isDate : Bool) (t : Moment) (format : Chars) : Chars :=
  textWithin isDate t (format.length + 1) format

def momentIn (z : Zone) (seconds : Int) (nanos : Nat) : Moment :=
  { seconds := seconds, nanos := nanos, offset := z.offsetAt seconds }

end ProductLine.Shell.Calendar
