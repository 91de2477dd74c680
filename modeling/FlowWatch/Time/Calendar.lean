/-
The proleptic Gregorian calendar.

Days are numbered from 1970-01-01. A year is taken to begin in March, so that the leap day is the
last day of the year: then the day number splits into 400-year cycles, centuries, four-year groups
and years by plain division, and the month follows from the day of the year by one linear formula.
The `min` in two of the steps keeps the last day of a leap year in its own group.
-/

set_option autoImplicit false

namespace FlowWatch.Time

/-- A calendar date; months and days count from one. -/
structure Date where
  year : Int
  month : Nat
  day : Nat
  deriving DecidableEq, Repr

namespace Date

/-- Leap years have 29 days in February. -/
def isLeap (year : Int) : Bool := year % 4 == 0 && (year % 100 != 0 || year % 400 == 0)

/-- The length of a month. -/
def daysInMonth (year : Int) (month : Nat) : Nat :=
  if month == 2 then (if isLeap year then 29 else 28)
  else if month == 4 || month == 6 || month == 9 || month == 11 then 30
  else 31

/-- Whether month and day exist in the year. -/
def isValid (d : Date) : Bool :=
  1 ≤ d.month && d.month ≤ 12 && 1 ≤ d.day && d.day ≤ daysInMonth d.year d.month

/-- 0000-03-01 is this many days before 1970-01-01. -/
def epochOffset : Int := 719468

/-- The month's place in a year that begins in March. -/
def marchMonth (month : Nat) : Int := (month + 9 : Int) % 12

/-- The number of the day, counted from 1970-01-01. -/
def dayNumber (d : Date) : Int :=
  let y := if d.month ≤ 2 then d.year - 1 else d.year
  365 * y + y / 4 - y / 100 + y / 400 + (153 * marchMonth d.month + 2) / 5 + d.day - 1 - epochOffset

/-- The date of a numbered day. -/
def ofDayNumber (n : Int) : Date :=
  let z := n + epochOffset
  let cycle := z / 146097
  let inCycle := z % 146097
  let century := min (inCycle / 36524) 3
  let inCentury := inCycle - 36524 * century
  let group := inCentury / 1461
  let inGroup := inCentury % 1461
  let ofGroup := min (inGroup / 365) 3
  let inYear := inGroup - 365 * ofGroup
  let m := (5 * inYear + 2) / 153
  let year := 400 * cycle + 100 * century + 4 * group + ofGroup
  { year := if m < 10 then year else year + 1
    month := (if m < 10 then m + 3 else m - 9).toNat
    day := (inYear - (153 * m + 2) / 5 + 1).toNat }

end Date

/-! ## The time of day -/

/-- A time of day. -/
structure DayTime where
  hour : Nat
  minute : Nat
  second : Nat
  nanosecond : Nat
  deriving DecidableEq, Repr

namespace DayTime

/-- Nanoseconds in a day. -/
def dayLength : Int := 86400000000000

/-- Nanoseconds since midnight. -/
def sinceMidnight (t : DayTime) : Int :=
  (3600 * t.hour + 60 * t.minute + t.second) * 1000000000 + t.nanosecond

/-- The time of day that many nanoseconds after midnight. -/
def ofSinceMidnight (n : Nat) : DayTime where
  hour := n / 3600000000000
  minute := n / 60000000000 % 60
  second := n / 1000000000 % 60
  nanosecond := n % 1000000000

end DayTime

/-- Date and time of day of a nanosecond count from 1970-01-01T00:00:00. -/
def dateTime (n : Int) : Date × DayTime :=
  (Date.ofDayNumber (n / DayTime.dayLength), DayTime.ofSinceMidnight (n % DayTime.dayLength).toNat)

/-- The nanosecond count of a date and a time of day. -/
def nanosecondsOf (d : Date) (t : DayTime) : Int :=
  d.dayNumber * DayTime.dayLength + t.sinceMidnight

end FlowWatch.Time
