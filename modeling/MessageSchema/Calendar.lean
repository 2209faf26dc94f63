/-!
# Calendar time

The date and time of day of a count of seconds since the beginning of 1970, in the Gregorian
calendar extended to all years and without leap seconds.

## Main definitions

* `Calendar.civil`: year, month and day of a count of days.
* `Calendar.text`: date and time of day as text.
-/

namespace MessageSchema.Calendar

/-- Days in four hundred years. -/
def cycleDays : Nat := 146097

/-- Year, month and day of a day counted from the beginning of 1970. Years are counted from March,
so that a leap day is the last of its year. -/
def civil (day : Int) : Int × Nat × Nat :=
  let shifted := day + 719468
  let cycle := shifted.fdiv cycleDays
  let dayOfCycle := (shifted.fmod cycleDays).toNat
  let yearOfCycle :=
    (dayOfCycle - dayOfCycle / 1460 + dayOfCycle / 36524 - dayOfCycle / 146096) / 365
  let dayOfYear := dayOfCycle - (365 * yearOfCycle + yearOfCycle / 4 - yearOfCycle / 100)
  let march := (5 * dayOfYear + 2) / 153
  let dayOfMonth := dayOfYear - (153 * march + 2) / 5 + 1
  let month := if march < 10 then march + 3 else march - 9
  let year := cycle * 400 + yearOfCycle + if month ≤ 2 then 1 else 0
  (year, month, dayOfMonth)

/-- A number with at least so many digits. -/
def padded (width n : Nat) : String :=
  let digits := Nat.toDigits 10 n
  String.ofList (List.replicate (width - digits.length) '0' ++ digits)

/-- A year in four digits; beyond them it has a sign. -/
def yearText (year : Int) : String :=
  if year < 0 then "-" ++ padded 4 year.natAbs
  else (if year > 9999 then "+" else "") ++ padded 4 year.toNat

/-- Date and time of day of a count of seconds since the beginning of 1970. -/
def text (seconds : Int) : String :=
  let (year, month, day) := civil (seconds.fdiv 86400)
  let time := (seconds.fmod 86400).toNat
  yearText year ++ "-" ++ padded 2 month ++ "-" ++ padded 2 day ++ " " ++
    padded 2 (time / 3600) ++ ":" ++ padded 2 (time / 60 % 60) ++ ":" ++ padded 2 (time % 60)

end MessageSchema.Calendar
