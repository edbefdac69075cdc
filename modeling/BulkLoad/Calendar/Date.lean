/-!
# Dates of the Gregorian calendar

The calendar runs in both directions without end; the year before year 1 is year 0. Days are
counted from 1970-01-01. A cycle of 400 years has 146097 days; counting years from March puts the
leap day last, so that the day of a year, the year of a cycle and the cycle come out by division.
-/

namespace BulkLoad.Calendar

/-- A day of the calendar. -/
structure Date where
  year : Int
  month : Nat
  day : Nat
deriving DecidableEq, Repr

namespace Date

/-- A year has a leap day when 4 divides it, except for centuries that 400 does not divide. -/
def isLeapYear (year : Int) : Bool :=
  year % 4 = 0 && (year % 100 ≠ 0 || year % 400 = 0)

/-- The number of days of a month. -/
def daysInMonth (year : Int) (month : Nat) : Nat :=
  if month = 2 then if isLeapYear year then 29 else 28
  else if month = 4 || month = 6 || month = 9 || month = 11 then 30
  else 31

/-- The days from 1970-01-01 to a date. -/
def toDays (d : Date) : Int :=
  let year := if d.month ≤ 2 then d.year - 1 else d.year
  let cycle := year / 400
  let yearOfCycle := year - 400 * cycle
  let month : Int := (d.month + 9) % 12
  let dayOfYear := (153 * month + 2) / 5 + d.day - 1
  let dayOfCycle := 365 * yearOfCycle + yearOfCycle / 4 - yearOfCycle / 100 + dayOfYear
  146097 * cycle + dayOfCycle - 719468

/-- The date a number of days after 1970-01-01. -/
def ofDays (days : Int) : Date :=
  let shifted := days + 719468
  let cycle := shifted / 146097
  let dayOfCycle := shifted - 146097 * cycle
  let yearOfCycle :=
    (dayOfCycle - dayOfCycle / 1460 + dayOfCycle / 36524 - dayOfCycle / 146096) / 365
  let dayOfYear := dayOfCycle - (365 * yearOfCycle + yearOfCycle / 4 - yearOfCycle / 100)
  let shiftedMonth := (5 * dayOfYear + 2) / 153
  let day := dayOfYear - (153 * shiftedMonth + 2) / 5 + 1
  let month := if shiftedMonth < 10 then shiftedMonth + 3 else shiftedMonth - 9
  let year := yearOfCycle + 400 * cycle
  ⟨if month ≤ 2 then year + 1 else year, month.toNat, day.toNat⟩

/-- The date with the given parts, if there is such a day. -/
def ofParts? (year : Int) (month day : Nat) : Option Date :=
  if 1 ≤ month && month ≤ 12 && 1 ≤ day && day ≤ daysInMonth year month then
    some ⟨year, month, day⟩
  else none

/-- The days since the last Sunday. -/
def daysFromSunday (d : Date) : Nat :=
  ((d.toDays + 4) % 7).toNat

/-- The days since the last Monday. -/
def daysFromMonday (d : Date) : Nat :=
  ((d.toDays + 3) % 7).toNat

/-- The number of the day in its year, from 1. -/
def ordinal (d : Date) : Nat :=
  (d.toDays - toDays ⟨d.year, 1, 1⟩ + 1).toNat

/-- The number of the week in its year when weeks start a number of days after the last start of a
week; the days before the first start are week 0. -/
def week (d : Date) (daysFromStart : Nat) : Nat :=
  (d.ordinal + 6 - daysFromStart) / 7

/-- The year and the number of the week to which a date belongs when weeks start on Monday and
belong to the year of their Thursday. -/
def isoWeek (d : Date) : Int × Nat :=
  let thursday := ofDays (d.toDays - d.daysFromMonday + 3)
  (thursday.year, (thursday.ordinal + 6) / 7)

example : toDays ⟨1970, 1, 1⟩ = 0 ∧ toDays ⟨2000, 2, 29⟩ = 11016 := by decide
example : ofDays 11016 = ⟨2000, 2, 29⟩ ∧ ofDays (-1) = ⟨1969, 12, 31⟩ := by decide

end Date

/-- The names of the months from January. -/
def monthNames : List String :=
  ["January", "February", "March", "April", "May", "June", "July", "August", "September",
    "October", "November", "December"]

/-- The names of the days of the week from Sunday. -/
def weekdayNames : List String :=
  ["Sunday", "Monday", "Tuesday", "Wednesday", "Thursday", "Friday", "Saturday"]

end BulkLoad.Calendar
