/-!
# The civil calendar

Days of the proleptic Gregorian calendar, counted from 1970-01-01. Both directions work on years
that begin in March, so that the leap day is the last day of its year, and on eras of 400 years,
which all have 146097 days.

- `Date.dayNumber` counts the days from 1970-01-01 to a date.
- `Date.ofDayNumber` is the date of a day.
-/

namespace MetadataSearch

/-- A year, a month from 1 to 12 and a day from 1. -/
structure Date where
  year : Int
  month : Nat
  day : Nat
  deriving DecidableEq

namespace Date

def isLeapYear (year : Int) : Bool :=
  year % 4 == 0 && (year % 100 != 0 || year % 400 == 0)

def daysInMonth (year : Int) (month : Nat) : Nat :=
  if month == 2 then (if isLeapYear year then 29 else 28)
  else if month == 4 || month == 6 || month == 9 || month == 11 then 30
  else 31

/-- Whether the calendar has this date. -/
def isValid (d : Date) : Bool :=
  1 ≤ d.month && d.month ≤ 12 && 1 ≤ d.day && d.day ≤ daysInMonth d.year d.month

/-- Days in an era of 400 years. -/
def daysPerEra : Int := 146097

/-- Days from 0000-03-01, the first day of era 0, to 1970-01-01. -/
def epochDay : Int := 719468

/-- The days from the first of March to the first of the month that is `m` months later. -/
def daysBeforeMonth (m : Nat) : Nat := (153 * m + 2) / 5

/-- The number of days from 1970-01-01 to the date. -/
def dayNumber (d : Date) : Int :=
  let marchYear := if d.month ≤ 2 then d.year - 1 else d.year
  let marchMonth := if d.month ≤ 2 then d.month + 9 else d.month - 3
  let era := marchYear / 400
  let yearOfEra := marchYear % 400
  era * daysPerEra + yearOfEra * 365 + yearOfEra / 4 - yearOfEra / 100 +
    daysBeforeMonth marchMonth + (d.day - 1 : Int) - epochDay

/-- The date of a day. A century has 36524 days, four years 1461 and a year 365, except the last of
each group, which may be a day longer. -/
def ofDayNumber (n : Int) : Date :=
  let z := n + epochDay
  let era := z / daysPerEra
  let dayOfEra := (z % daysPerEra).toNat
  let century := min (dayOfEra / 36524) 3
  let dayOfCentury := dayOfEra - 36524 * century
  let dayOfFour := dayOfCentury % 1461
  let yearOfFour := min (dayOfFour / 365) 3
  let dayOfYear := dayOfFour - 365 * yearOfFour
  let yearOfEra := 100 * century + 4 * (dayOfCentury / 1461) + yearOfFour
  let marchMonth := (5 * dayOfYear + 2) / 153
  let day := dayOfYear - daysBeforeMonth marchMonth + 1
  let marchYear := era * 400 + yearOfEra
  if marchMonth < 10 then ⟨marchYear, marchMonth + 3, day⟩
  else ⟨marchYear + 1, marchMonth - 9, day⟩

end Date

end MetadataSearch
