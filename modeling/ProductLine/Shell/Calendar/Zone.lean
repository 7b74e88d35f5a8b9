/- # Zones — how far the clocks of a place are ahead

A zone has a standard time, and may have another one in summer, which begins
and ends on some day of a week of a month.  A zone is spelled by its times,
such as `CET-1CEST,M3.5.0,M10.5.0/3`, or known by a name.
-/
import ProductLine.Shell.Calendar.Day

namespace ProductLine.Shell.Calendar

/-- A time that clocks may show: its name, and the seconds by which it is ahead of universal time. -/
structure Offset where
  name : Chars
  ahead : Int := 0

def universal : Offset := { name := str "UTC" }

/-- When clocks are changed: on a day of a week of a month, of which the fifth is the last one, so
many seconds after midnight. -/
structure ClockChange where
  month : Nat
  week : Nat
  weekDay : Nat
  seconds : Int := 7200

/-- The local time of the change in a year, in seconds since 1970. -/
def ClockChange.inYear (c : ClockChange) (year : Int) : Int :=
  let first := daysToMonth year c.month
  let day := first + ((c.weekDay + 7 - weekDayOf first) % 7 + 7 * (c.week - 1) : Nat)
  let next := daysTo year (c.month + 1) 1
  (if next ≤ day then day - 7 else day) * daySeconds + c.seconds

/-- The time in summer, and when it begins and ends. -/
structure Summer where
  offset : Offset
  begins : ClockChange := { month := 3, week := 2, weekDay := 0 }
  ends : ClockChange := { month := 11, week := 1, weekDay := 0 }

structure Zone where
  standard : Offset
  summer : Option Summer := none

namespace Zone

def offsetAt (z : Zone) (seconds : Int) : Offset :=
  match z.summer with
  | none => z.standard
  | some s =>
    let (year, _, _) := civil ((seconds + z.standard.ahead) / daySeconds)
    let start := s.begins.inYear year - z.standard.ahead
    let stop := s.ends.inYear year - s.offset.ahead
    let isSummer :=
      if start ≤ stop then start ≤ seconds && seconds < stop
      else start ≤ seconds || seconds < stop
    if isSummer then s.offset else z.standard

/-- The moment at which the clocks of the zone show a time.  If they are changed then, the standard
time counts. -/
def momentOf (z : Zone) (shown : Int) : Int :=
  let standard := shown - z.standard.ahead
  match z.summer with
  | none => standard
  | some s =>
    let summer := shown - s.offset.ahead
    if (z.offsetAt summer).ahead == s.offset.ahead && (z.offsetAt standard).ahead == s.offset.ahead
    then summer else standard

/-! ## Zones as they are spelled -/

/-- The name of a time at the front, and what follows. -/
def readName (text : Chars) : Chars × Chars :=
  match text with
  | '<' :: rest =>
    let name := rest.takeWhile (· != '>')
    (name, rest.drop (name.length + 1))
  | text =>
    let name := text.takeWhile Char.isAlpha
    (name, text.drop name.length)

/-- The hours, minutes and seconds at the front, in seconds, and what follows. -/
def readHours? (text : Chars) : Option (Int × Chars) :=
  let (sign, body) : Int × Chars := match text with
    | '-' :: rest => (-1, rest)
    | '+' :: rest => (1, rest)
    | rest => (1, rest)
  let number (text : Chars) : Nat × Chars :=
    let digits := text.takeWhile Char.isDigit
    (Chars.digitsValue digits, text.drop digits.length)
  if !(body.head?.any Char.isDigit) then none
  else
    let (hours, rest) := number body
    match rest with
    | ':' :: rest =>
      let (minutes, rest) := number rest
      match rest with
      | ':' :: rest =>
        let (seconds, rest) := number rest
        some (sign * (hours * 3600 + minutes * 60 + seconds : Nat), rest)
      | rest => some (sign * (hours * 3600 + minutes * 60 : Nat), rest)
    | rest => some (sign * (hours * 3600 : Nat), rest)

/-- The change of clocks that a text such as `M10.5.0/3` spells. -/
def readChange? (text : Chars) : Option ClockChange :=
  let day := text.takeWhile (· != '/')
  let seconds := ((readHours? (text.drop (day.length + 1))).map Prod.fst).getD 7200
  match day with
  | 'M' :: numbers =>
    match (numbers.splitOn '.').map Chars.toNat? with
    | [some month, some week, some weekDay] =>
      some { month := month, week := week, weekDay := weekDay, seconds := seconds }
    | _ => none
  | _ => none

/-- The zone that its times spell.  What cannot be read counts as universal time by another name. -/
def ofTimes (text : Chars) : Zone :=
  let (name, rest) := readName text
  match readHours? rest with
  | none => { standard := { name := name } }
  | some (behind, rest) =>
    let standard : Offset := { name := name, ahead := -behind }
    if rest.isEmpty then { standard := standard }
    else
      let (name, rest) := readName rest
      let (behind, rest) := (readHours? rest).getD (behind - 3600, rest)
      let summer : Summer := { offset := { name := name, ahead := -behind } }
      match ((rest.splitOn ',').drop 1).map readChange? with
      | [some begins, some ends] =>
        { standard := standard, summer := some { summer with begins := begins, ends := ends } }
      | _ => { standard := standard, summer := some summer }

/-- Zones that are known by the name of a place, with their times. -/
def places : List (String × String) :=
  [("UTC", "UTC0"), ("GMT", "GMT0"), ("Etc/UTC", "UTC0"), ("Etc/GMT", "GMT0"), ("Zulu", "UTC0"),
    ("Universal", "UTC0"), ("Etc/GMT+5", "<-05>5"), ("Etc/GMT-5", "<+05>-5"),
    ("EST", "EST5"), ("MST", "MST7"), ("HST", "HST10"), ("CET", "CET-1CEST,M3.5.0,M10.5.0/3"),
    ("America/New_York", "EST5EDT,M3.2.0,M11.1.0"), ("America/Chicago", "CST6CDT,M3.2.0,M11.1.0"),
    ("America/Denver", "MST7MDT,M3.2.0,M11.1.0"),
    ("America/Los_Angeles", "PST8PDT,M3.2.0,M11.1.0"), ("America/Sao_Paulo", "<-03>3"),
    ("Europe/London", "GMT0BST,M3.5.0/1,M10.5.0"), ("Europe/Berlin", "CET-1CEST,M3.5.0,M10.5.0/3"),
    ("Europe/Paris", "CET-1CEST,M3.5.0,M10.5.0/3"), ("Europe/Rome", "CET-1CEST,M3.5.0,M10.5.0/3"),
    ("Europe/Madrid", "CET-1CEST,M3.5.0,M10.5.0/3"), ("Europe/Moscow", "MSK-3"),
    ("Asia/Tokyo", "JST-9"), ("Asia/Kolkata", "IST-5:30"), ("Asia/Shanghai", "CST-8"),
    ("Asia/Singapore", "<+08>-8"), ("Australia/Sydney", "AEST-10AEDT,M10.1.0,M4.1.0/3")]

/-- The zone that a setting names or spells; without one it is that of universal time. -/
def ofSetting (setting : Option Chars) : Zone :=
  match setting with
  | none | some [] => { standard := universal }
  | some text =>
    let text := if text.head? == some ':' then text.drop 1 else text
    match places.lookup (String.ofList text) with
    | some times => ofTimes times.toList
    | none => ofTimes text

end Zone

end ProductLine.Shell.Calendar
