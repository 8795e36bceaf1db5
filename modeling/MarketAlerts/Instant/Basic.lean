/-!
# Instants and the calendar

An `Instant` is a point in time, in whole seconds since the start of 1970 (UTC) and nanoseconds
within the second. A leap second is the second before it with a nanosecond count from one to two
billion. Dates are those of the Gregorian calendar continued to all years, from the year -262143
to 262142.
-/

namespace MarketAlerts

/-- A point in time. -/
structure Instant where
  /-- Whole seconds since the start of 1970; a leap second counts as the second before it. -/
  seconds : Int
  /-- Nanoseconds within the second; from a billion on within a leap second. -/
  nanos : Nat
deriving DecidableEq, Inhabited

/-- A day of the Gregorian calendar. -/
structure Date where
  /-- The year; zero is the year before the year one. -/
  year : Int
  /-- The month, from one. -/
  month : Nat
  /-- The day of the month, from one. -/
  day : Nat
deriving DecidableEq, Inhabited

namespace Date

/-- Whether a year has 366 days. -/
def isLeapYear (year : Int) : Bool :=
  year % 4 == 0 && (year % 100 != 0 || year % 400 == 0)

/-- The number of days of a month. -/
def daysInMonth (year : Int) (month : Nat) : Nat :=
  match month with
  | 2 => if isLeapYear year then 29 else 28
  | 4 | 6 | 9 | 11 => 30
  | _ => 31

/-- The day number, zero being the first day of 1970. Years start in March, so that the leap day
comes last. -/
def toDays (d : Date) : Int :=
  let y := if d.month ≤ 2 then d.year - 1 else d.year
  let m : Int := (d.month + 9) % 12
  let era := y.fdiv 400
  let yearOfEra := y - era * 400
  let dayOfYear := (153 * m + 2) / 5 + d.day - 1
  era * 146097 + (yearOfEra * 365 + yearOfEra / 4 - yearOfEra / 100 + dayOfYear) - 719468

/-- The day with this number. -/
def ofDays (days : Int) : Date :=
  let z := days + 719468
  let era := z.fdiv 146097
  let dayOfEra := z - era * 146097
  let yearOfEra := (dayOfEra - dayOfEra / 1460 + dayOfEra / 36524 - dayOfEra / 146096) / 365
  let dayOfYear := dayOfEra - (365 * yearOfEra + yearOfEra / 4 - yearOfEra / 100)
  let m := (5 * dayOfYear + 2) / 153
  let day := dayOfYear - (153 * m + 2) / 5 + 1
  let month := if m < 10 then m + 3 else m - 9
  let year := yearOfEra + era * 400
  ⟨if month ≤ 2 then year + 1 else year, month.toNat, day.toNat⟩

/-- Whether month and day exist and the year is in range. -/
def isValid (d : Date) : Bool :=
  -262143 ≤ d.year && d.year ≤ 262142 && 1 ≤ d.month && d.month ≤ 12
    && 1 ≤ d.day && d.day ≤ daysInMonth d.year d.month

/-- The day of the week, Monday being one. -/
def dayOfWeek (days : Int) : Nat := ((days + 3) % 7).toNat + 1

end Date

namespace Instant

/-- The start of 1970. -/
def epoch : Instant := ⟨0, 0⟩

/-- The first second of the first year. -/
def minSeconds : Int := (Date.mk (-262143) 1 1).toDays * 86400

/-- The last second of the last year. -/
def maxSeconds : Int := (Date.mk 262142 12 31).toDays * 86400 + 86399

/-- The instant at a whole second, when its year is in range. -/
def ofSeconds? (seconds : Int) : Option Instant :=
  if minSeconds ≤ seconds ∧ seconds ≤ maxSeconds then some ⟨seconds, 0⟩ else none

/-- The number of the day. -/
def days (t : Instant) : Int := t.seconds.fdiv 86400

/-- The second of the day. -/
def secondOfDay (t : Instant) : Nat := (t.seconds.fmod 86400).toNat

/-- The date. -/
def date (t : Instant) : Date := Date.ofDays t.days

/-- The hour, from zero. -/
def hour (t : Instant) : Nat := t.secondOfDay / 3600

/-- The minute of the hour. -/
def minute (t : Instant) : Nat := t.secondOfDay / 60 % 60

/-- The second of the minute; 60 within a leap second. -/
def second (t : Instant) : Nat := t.secondOfDay % 60 + t.nanos / 1000000000

/-- Nanoseconds within the second shown by `second`. -/
def fraction (t : Instant) : Nat := t.nanos % 1000000000

/-- The day of the week, Monday being one. -/
def dayOfWeek (t : Instant) : Nat := Date.dayOfWeek t.days

/-- The instant some whole seconds later; `none` past the last year. A leap second is left for an
ordinary one. -/
def addSeconds? (t : Instant) (n : Nat) : Option Instant :=
  if t.seconds + n ≤ maxSeconds then some ⟨t.seconds + n, t.nanos % 1000000000⟩ else none

end Instant

end MarketAlerts
