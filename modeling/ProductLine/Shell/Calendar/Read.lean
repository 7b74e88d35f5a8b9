/- # Reading times — dates, times of the day, and distances from now

A time is written as items in any order: a date, a time of the day, a zone, a
day of the week, and distances such as `3 days ago`.  What is not said is
taken from the present.
-/
import ProductLine.Shell.Calendar.Format

namespace ProductLine.Shell.Calendar

/-- A piece of a written time. -/
inductive Piece where
  | number (digits : Chars)
  | word (letters : Chars)
  | mark (c : Char)
deriving DecidableEq

/-- What has been read of a written time. -/
structure Written where
  stamp : Option (Int × Nat) := none
  date : Option (Int × Int × Int) := none
  lacksYear : Bool := false
  time : Option (Int × Nat) := none
  ahead : Option Int := none
  weekDay : Option (Int × Nat) := none
  months : Int := 0
  days : Int := 0
  seconds : Int := 0
  isRelative : Bool := false

namespace Written

def pieces : (fuel : Nat) → Chars → List Piece
  | 0, _ => []
  | _, [] => []
  | fuel + 1, c :: rest =>
    if Chars.isSpace c || c == ',' then pieces fuel rest
    else if c.isDigit then
      let digits := (c :: rest).takeWhile Char.isDigit
      .number digits :: pieces fuel ((c :: rest).drop digits.length)
    else if c.isAlpha then
      let letters := (c :: rest).takeWhile fun c => c.isAlpha || c == '.'
      let word := letters.filterMap fun c => if c == '.' then none else some c.toLower
      .word word :: pieces fuel ((c :: rest).drop letters.length)
    else .mark c :: pieces fuel rest

/-- The number of the name in a list, of which at least three letters are given. -/
def nameIndex? (names : List String) (word : Chars) : Option Nat :=
  let isMeant (name : String) : Bool :=
    3 ≤ word.length && Chars.startsWith (name.toList.map Char.toLower) word
  names.findIdx? isMeant

def zoneHours : List (String × Int) :=
  [("utc", 0), ("gmt", 0), ("z", 0), ("ut", 0), ("wet", 0), ("est", -5), ("edt", -4), ("cst", -6),
    ("cdt", -5), ("mst", -7), ("mdt", -6), ("pst", -8), ("pdt", -7), ("bst", 1), ("cet", 1),
    ("cest", 2), ("eet", 2), ("eest", 3), ("msk", 3), ("ist", 0), ("jst", 9)]

/-- The distance of a number of units, if the word is one. -/
def addUnits? (w : Written) (n : Int) (unit : Chars) : Option Written :=
  let w := { w with isRelative := true }
  let unit := if 3 < unit.length && unit.getLast? == some 's' then unit.dropLast else unit
  match String.ofList unit with
  | "year" => some { w with months := w.months + 12 * n }
  | "month" => some { w with months := w.months + n }
  | "fortnight" => some { w with days := w.days + 14 * n }
  | "week" => some { w with days := w.days + 7 * n }
  | "day" => some { w with days := w.days + n }
  | "hour" => some { w with seconds := w.seconds + 3600 * n }
  | "minute" | "min" => some { w with seconds := w.seconds + 60 * n }
  | "second" | "sec" => some { w with seconds := w.seconds + n }
  | _ => none

def countWords : List (String × Int) :=
  [("last", -1), ("this", 0), ("next", 1), ("first", 1), ("third", 3), ("fourth", 4),
    ("fifth", 5), ("sixth", 6), ("seventh", 7), ("eighth", 8), ("ninth", 9), ("tenth", 10),
    ("eleventh", 11), ("twelfth", 12)]

/-- The days by which some words differ from the present. -/
def dayWords : List (String × Int) :=
  [("now", 0), ("today", 0), ("tomorrow", 1), ("yesterday", -1)]

/-- A distance in units at the front, which may be ago, and what follows. -/
def distance? (w : Written) (n : Int) : List Piece → Option (Written × List Piece)
  | .word unit :: .word ago :: rest =>
    if ago == str "ago" then (addUnits? w (-n) unit).map fun w => (w, rest)
    else (addUnits? w n unit).map fun w => (w, .word ago :: rest)
  | .word unit :: rest => (addUnits? w n unit).map fun w => (w, rest)
  | _ => none

def nanosOf (digits : Chars) : Nat :=
  Chars.digitsValue ((digits ++ List.replicate 9 '0').take 9)

/-- An offset behind its sign: hours and minutes, with or without a colon. -/
def offset? (sign : Char) : List Piece → Option (Int × List Piece)
  | .number h :: .mark ':' :: .number m :: rest =>
    let n : Int := (Chars.digitsValue h * 3600 + Chars.digitsValue m * 60 : Nat)
    some (if sign == '-' then -n else n, rest)
  | .number d :: rest =>
    let v := Chars.digitsValue d
    let n : Int := (if d.length ≤ 2 then v * 3600 else v / 100 * 3600 + v % 100 * 60 : Nat)
    some (if sign == '-' then -n else n, rest)
  | _ => none

def halfDay? (hour : Nat) (word : Chars) : Option Nat :=
  if hour < 1 || 12 < hour then none
  else if word == str "am" then some (hour % 12)
  else if word == str "pm" then some (hour % 12 + 12)
  else none

/-- What has been read with a time of the day, behind which a half of the day or an offset may
stand. -/
def withTime (w : Written) (hour minute second nanos : Nat) (rest : List Piece) :
    Option (Written × List Piece) :=
  let make (hour : Nat) (rest : List Piece) : Option (Written × List Piece) :=
    if w.time.isSome || 24 ≤ hour || 60 ≤ minute || 61 ≤ second then none
    else
      let w := { w with time := some ((hour * 3600 + minute * 60 + second : Nat), nanos) }
      match rest with
      | .mark c :: .number d :: more =>
        let isUnit := match more with
          | .word unit :: _ => (addUnits? w 0 unit).isSome
          | _ => false
        if (c == '+' || c == '-') && !isUnit then
          (offset? c (.number d :: more)).map fun (n, rest) => ({ w with ahead := some n }, rest)
        else some (w, rest)
      | rest => some (w, rest)
  match rest with
  | .word half :: after =>
    if half == str "am" || half == str "pm" then
      (halfDay? hour half).bind fun hour => make hour after
    else make hour rest
  | rest => make hour rest

/-- What has been read with a date, unless there is one already. -/
def withDate? (w : Written) (year month day : Int) (rest : List Piece) :
    Option (Written × List Piece) :=
  if w.date.isSome then none else some ({ w with date := some (year, month, day) }, rest)

/-- A year of two digits belongs to the century around 2000. -/
def fullYear (digits : Chars) : Int :=
  let n := Chars.digitsValue digits
  if digits.length ≤ 2 then (if n < 69 then n + 2000 else n + 1900 : Nat) else n

/-- Reads the item at the front of some pieces that begin with a number; `year` is the present
one. -/
def number? (w : Written) (year : Int) (digits : Chars) (rest : List Piece) :
    Option (Written × List Piece) :=
  let n := Chars.digitsValue digits
  let value (d : Chars) : Int := Chars.digitsValue d
  match rest with
  | .mark ':' :: .number m :: .mark ':' :: .number s :: .mark '.' :: .number f :: rest =>
    withTime w n (Chars.digitsValue m) (Chars.digitsValue s) (nanosOf f) rest
  | .mark ':' :: .number m :: .mark ':' :: .number s :: rest =>
    withTime w n (Chars.digitsValue m) (Chars.digitsValue s) 0 rest
  | .mark ':' :: .number m :: rest => withTime w n (Chars.digitsValue m) 0 0 rest
  | .mark '-' :: .number m :: .mark '-' :: .number d :: rest =>
    let rest := match rest with
      | .word t :: .number h :: rest =>
        if t == ['t'] then .number h :: rest else .word t :: .number h :: rest
      | rest => rest
    withDate? w (fullYear digits) (value m) (value d) rest
  | .mark '/' :: .number b :: .mark '/' :: .number c :: rest =>
    if 4 ≤ digits.length then withDate? w n (value b) (value c) rest
    else withDate? w (fullYear c) n (value b) rest
  | .mark '/' :: .number b :: rest => withDate? { w with lacksYear := true } year n (value b) rest
  | .mark '-' :: .word month :: .mark '-' :: .number y :: rest =>
    (nameIndex? monthNames month).bind fun m => withDate? w (fullYear y) (m + 1) n rest
  | .word word :: rest =>
    if word == str "am" || word == str "pm" then withTime w n 0 0 0 (.word word :: rest)
    else
      match distance? w n (.word word :: rest), nameIndex? monthNames word with
      | some found, _ => some found
      | none, some m =>
        match rest with
        | .number y :: .mark ':' :: more =>
          withDate? { w with lacksYear := true } year (m + 1) n (.number y :: .mark ':' :: more)
        | .number y :: rest => withDate? w (fullYear y) (m + 1) n rest
        | rest => withDate? { w with lacksYear := true } year (m + 1) n rest
      | none, none => alone rest word
  | rest => single rest
where
  /-- A number by itself: a date without marks, a year, or a time. -/
  single (rest : List Piece) : Option (Written × List Piece) :=
    let n := Chars.digitsValue digits
    match w.date with
    | some (_, month, day) =>
      if w.lacksYear && (w.time.isSome || 2 < digits.length) then
        some ({ w with date := some (fullYear digits, month, day), lacksYear := false }, rest)
      else clock rest
    | none =>
      if 4 < digits.length then withDate? w (n / 10000 : Nat) (n / 100 % 100 : Nat) (n % 100 : Nat) rest
      else clock rest
  /-- A number by itself that is a time. -/
  clock (rest : List Piece) : Option (Written × List Piece) :=
    let n := Chars.digitsValue digits
    if digits.length ≤ 2 then withTime w n 0 0 0 rest
    else if digits.length ≤ 4 then withTime w (n / 100) (n % 100) 0 0 rest
    else none
  /-- A number by itself before a word. -/
  alone (rest : List Piece) (word : Chars) : Option (Written × List Piece) :=
    single (.word word :: rest)

/-- Reads the item at the front of some pieces that begin with a word; `year` is the present one. -/
def word? (w : Written) (year : Int) (word : Chars) (rest : List Piece) :
    Option (Written × List Piece) :=
  let name := String.ofList word
  match dayWords.lookup name, countWords.lookup name, zoneHours.lookup name with
  | some n, _, _ => some ({ w with days := w.days + n, isRelative := true }, rest)
  | _, some n, _ =>
    match rest with
    | .word next :: more =>
      match nameIndex? dayNames next with
      | some day => some ({ w with weekDay := some (n, day) }, more)
      | none => distance? w n rest
    | _ => none
  | _, _, some hours =>
    if w.ahead.isSome then none
    else
      let w := { w with ahead := some (hours * 3600) }
      match rest with
      | .mark c :: .number d :: more =>
        if c == '+' || c == '-' then
          (offset? c (.number d :: more)).map fun (n, rest) =>
            ({ w with ahead := some (hours * 3600 + n) }, rest)
        else some (w, rest)
      | rest => some (w, rest)
  | none, none, none =>
    match nameIndex? dayNames word, nameIndex? monthNames word with
    | some day, _ => some ({ w with weekDay := some (0, day) }, rest)
    | none, some m =>
      match rest with
      | .number d :: .number y :: .mark ':' :: more =>
        withDate? { w with lacksYear := true } year (m + 1) (Chars.digitsValue d)
          (.number y :: .mark ':' :: more)
      | .number d :: .number y :: rest =>
        withDate? w (fullYear y) (m + 1) (Chars.digitsValue d) rest
      | .number d :: rest =>
        withDate? { w with lacksYear := true } year (m + 1) (Chars.digitsValue d) rest
      | _ => none
    | none, none => distance? w 1 (.word word :: rest)

/-- Reads items to the end.  `fuel` bounds them, and `year` is the present one. -/
def read? (year : Int) : (fuel : Nat) → Written → List Piece → Option Written
  | 0, _, _ => none
  | _, w, [] => some w
  | fuel + 1, w, piece :: rest => do
    let (w, rest) ← match piece, rest with
      | .number digits, rest => number? w year digits rest
      | .word word, rest => word? w year word rest
      | .mark '+', .number n :: rest => distance? w (Chars.digitsValue n) rest
      | .mark '-', .number n :: rest => distance? w (-Chars.digitsValue n) rest
      | .mark _, _ => none
    read? year fuel w rest

/-- The time that is meant, where the clocks of a zone show the present one. -/
def resolve? (w : Written) (z : Zone) (now : Moment) : Option (Int × Nat) := do
  let keepsTime := w.isRelative && w.date.isNone && w.weekDay.isNone
  let (time, nanos) := w.time.getD
    (if keepsTime then ((now.dayTime : Int), now.nanos) else (0, 0))
  let (year, month, day) := w.date.getD (now.year, now.month, now.day)
  if w.date.isSome && civil (daysTo year month day) != (year, month.toNat, day.toNat) then none
  let days := daysTo year (month + w.months) (day + w.days)
  let days := match w.weekDay, w.date with
    | some (count, wanted), none =>
      let present := weekDayOf days
      days + ((wanted + 7 - present) % 7 : Nat) +
        7 * (count - (if 0 < count && present ≠ wanted then 1 else 0))
    | _, _ => days
  let shown := days * daySeconds + time
  let moment := match w.ahead with
    | some ahead => shown - ahead
    | none => z.momentOf shown
  return (moment + w.seconds, nanos)

end Written

/-- The number of seconds behind a mark for them, and the nanoseconds after it. -/
def stamp? (text : Chars) : Option (Int × Nat) :=
  let (negative, body) := match text with
    | '-' :: rest => (true, rest)
    | '+' :: rest => (false, rest)
    | rest => (false, rest)
  let digits := body.takeWhile Char.isDigit
  let n : Int := Chars.digitsValue digits
  let n := if negative then -n else n
  match body.drop digits.length with
  | [] => if digits.isEmpty then none else some (n, 0)
  | '.' :: part =>
    if part.all Char.isDigit && !digits.isEmpty then some (n, Written.nanosOf part) else none
  | _ => none

/-- The time that is written, seen from the present one in a zone. -/
def read? (z : Zone) (now : Moment) (written : Chars) : Option (Int × Nat) :=
  let body := written.dropWhile Chars.isSpace
  match body with
  | '@' :: rest => stamp? (rest.reverse.dropWhile Chars.isSpace).reverse
  | body => do
    let pieces := Written.pieces (body.length + 1) body
    let w ← Written.read? now.year (pieces.length + 1) {} pieces
    w.resolve? z now

end ProductLine.Shell.Calendar
