/- # Days — years, months and days, counted from 1970 on

A day is a number of days since the first of January 1970, or a year, a
month and a day of the month.  Years are taken to begin in March, so that a
leap day is the last day of its year.
-/
import ProductLine.Shell.Chars

namespace ProductLine.Shell.Calendar

/-- The day of a number of days since 1970, as year, month and day. -/
def civil (days : Int) : Int × Nat × Nat :=
  let z := days + 719468
  let era := z / 146097
  let doe := (z % 146097).toNat
  let yoe := (doe - doe / 1460 + doe / 36524 - doe / 146096) / 365
  let doy := doe - (365 * yoe + yoe / 4 - yoe / 100)
  let mp := (5 * doy + 2) / 153
  let day := doy - (153 * mp + 2) / 5 + 1
  let month := if mp < 10 then mp + 3 else mp - 9
  (yoe + era * 400 + (if month ≤ 2 then 1 else 0), month, day)

def daysToMonth (year : Int) (month : Nat) : Int :=
  let y := if month ≤ 2 then year - 1 else year
  let yoe := (y % 400).toNat
  let mp := if 2 < month then month - 3 else month + 9
  let doy := (153 * mp + 2) / 5
  y / 400 * 146097 + ((yoe * 365 + yoe / 4 - yoe / 100 + doy : Nat) : Int) - 719468

/-- The number of days from 1970 to a day.  Months and days go on beyond the end of what they are a
part of, and before its beginning. -/
def daysTo (year month day : Int) : Int :=
  let months := year * 12 + (month - 1)
  daysToMonth (months / 12) ((months % 12).toNat + 1) + day - 1

def weekDayOf (days : Int) : Nat := ((days + 4) % 7).toNat

def monthNames : List String :=
  ["January", "February", "March", "April", "May", "June", "July", "August", "September",
    "October", "November", "December"]

def dayNames : List String :=
  ["Sunday", "Monday", "Tuesday", "Wednesday", "Thursday", "Friday", "Saturday"]

def daySeconds : Int := 86400

def epoch : Nat := 1735689600

end ProductLine.Shell.Calendar
