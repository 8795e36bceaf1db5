import Mathlib.Algebra.Order.Round
import Mathlib.Data.Rat.Floor
import MarketAlerts.Proofs.Decimal.Range

/-!
# Rounding to places

A decimal that is cut to some places becomes the nearest number with so many places, and of two that
are equally near the one further from zero. A number that becomes zero so loses its sign, but a zero
that has one keeps it.

## Main definitions

- `nearestAway`: the whole number next to a rational one.

## Main results

- `round_natCast_div`: rounding a quotient half up;
- `scale_roundAway`, `count_roundAway`, `negative_roundAway`: places, digits and sign of a decimal
  that is cut.
-/

namespace MarketAlerts.Decimal

/-! ## Whole numbers -/

/-- The whole number nearest to `x`, and of two the one further from zero. `round` takes the
greater one. -/
def nearestAway (x : ℚ) : ℤ := if x < 0 then -round (-x) else round x

theorem nearestAway_zero : nearestAway 0 = 0 := by
  simp [nearestAway]

/-- What is not below zero is not rounded below it. -/
theorem round_nonneg {x : ℚ} (h : 0 ≤ x) : 0 ≤ round x := by
  rw [round_eq]
  exact Int.floor_nonneg.2 (by linarith)

/-- The size of the nearest number is the nearest one to the size. -/
theorem natAbs_nearestAway (x : ℚ) : ((nearestAway x).natAbs : ℤ) = round |x| := by
  unfold nearestAway
  split
  next h => rw [abs_of_neg h, Int.natAbs_neg, Int.natAbs_of_nonneg (round_nonneg (by linarith))]
  next h =>
    rw [abs_of_nonneg (not_lt.1 h), Int.natAbs_of_nonneg (round_nonneg (not_lt.1 h))]

/-- What is rounded is below zero if it was, unless it becomes zero. -/
theorem nearestAway_lt_zero_iff (x : ℚ) : nearestAway x < 0 ↔ x < 0 ∧ nearestAway x ≠ 0 := by
  unfold nearestAway
  split
  next h =>
    have hnonneg := round_nonneg (x := -x) (by linarith)
    constructor
    · intro hneg
      exact ⟨h, hneg.ne⟩
    · rintro ⟨-, hne⟩
      omega
  next h =>
    have hnonneg := round_nonneg (not_lt.1 h)
    constructor
    · intro hneg
      omega
    · rintro ⟨hneg, -⟩
      exact absurd hneg h

/-- A division that rounds halves up is one without a rest, of twice the numbers. -/
theorem divHalfUp_eq (num : Nat) {den : Nat} (hden : 0 < den) :
    divHalfUp num den = (2 * num + den) / (2 * den) := by
  have hmod : num % den < den := Nat.mod_lt num hden
  have hnum : 2 * num + den = 2 * den * (num / den) + (2 * (num % den) + den) := by
    have hdiv : den * (num / den) + num % den = num := Nat.div_add_mod num den
    rw [Nat.mul_assoc]
    omega
  -- the remainder and a half come to one if and only if it is a half or more
  have hrest : (2 * (num % den) + den) / (2 * den) = if 2 * (num % den) < den then 0 else 1 := by
    split
    next h => exact Nat.div_eq_of_lt (by omega)
    next h => exact Nat.div_eq_of_lt_le (by omega) (by omega)
  rw [hnum, Nat.mul_add_div (by omega), hrest, divHalfUp]
  split <;> rfl

/-- A quotient is not greater than what was divided. -/
theorem divHalfUp_le (num : Nat) {den : Nat} (hden : 0 < den) : divHalfUp num den ≤ num := by
  have hnum : den * (num / den) + num % den = num := Nat.div_add_mod num den
  have hmod : num % den < den := Nat.mod_lt num hden
  have hquot : num / den ≤ den * (num / den) := Nat.le_mul_of_pos_left _ hden
  unfold divHalfUp
  dsimp only
  split
  next => omega
  next => omega

theorem divHalfUp_zero {den : Nat} (hden : 0 < den) : divHalfUp 0 den = 0 :=
  Nat.le_zero.1 (divHalfUp_le 0 hden)

/-- A quotient is rounded half up. -/
theorem round_natCast_div (num : Nat) {den : Nat} (hden : 0 < den) :
    round ((num : ℚ) / den) = divHalfUp num den := by
  have hne : (den : ℚ) ≠ 0 := by exact_mod_cast hden.ne'
  have hhalf : (num : ℚ) / den + 1 / 2 = (2 * num + den : Nat) / (2 * den : Nat) := by
    push_cast
    field_simp
  rw [round_eq, hhalf, Rat.floor_natCast_div_natCast, divHalfUp_eq num hden, Int.natCast_ediv]

/-! ## Decimals -/

/-- A decimal is zero if its coefficient is. -/
theorem isZero_iff (d : Decimal) : d.isZero = true ↔ d.coefficient = 0 := by
  simp [isZero]

section RoundAway

variable {d : Decimal} {places : Nat}

/-- Where there are few enough places nothing is rounded. -/
theorem roundAway_of_le (h : d.scale ≤ places) : d.roundAway places = d :=
  dif_pos h

/-- A decimal with more places than are asked for. -/
theorem roundAway_of_lt (h : places < d.scale) :
    (d.roundAway places).scale = places ∧
      (d.roundAway places).coefficient = divHalfUp d.coefficient (tenTo (d.scale - places)) ∧
      ((d.roundAway places).negative = true ↔
        d.negative = true ∧ ((d.roundAway places).isZero = false ∨ d.isZero = true)) := by
  have hten := tenTo_pos (d.scale - places)
  unfold roundAway roundWith
  rw [dif_neg (Nat.not_le.2 h)]
  simp only [isZero_iff]
  split
  next hzero => simp [hzero, divHalfUp_zero hten, isZero]
  next hzero =>
    -- the digits do not become more, so that they fit
    have hfits : divHalfUp d.coefficient (tenTo (d.scale - places)) < twoTo 96 ∧ places ≤ 28 :=
      ⟨(divHalfUp_le _ hten).trans_lt d.coefficient_lt, h.le.trans d.scale_le⟩
    rw [ofParts?, dif_pos hfits]
    simp [hzero, isZero]

/-- After rounding there are no more places than asked for. -/
theorem scale_roundAway (d : Decimal) (places : Nat) : (d.roundAway places).scale ≤ places := by
  rcases Nat.lt_or_ge places d.scale with h | h
  · exact (roundAway_of_lt h).1.le
  · rwa [roundAway_of_le h]

/-- What is left of a decimal is the nearest number of units of the last place. -/
theorem count_roundAway (d : Decimal) (places : Nat) :
    (d.roundAway places).coefficient * tenTo (places - (d.roundAway places).scale) =
      (nearestAway (d.toRat * tenTo places)).natAbs := by
  have hpos := tenTo_pos_rat d.scale
  have habs : |d.toRat * tenTo places| = d.coefficient * tenTo places / tenTo d.scale := by
    rw [abs_mul, abs_toRat, abs_of_pos (tenTo_pos_rat places), div_mul_eq_mul_div]
  rw [← Int.natCast_inj, natAbs_nearestAway, habs]
  rcases Nat.lt_or_ge places d.scale with h | h
  · obtain ⟨hscale, hcoefficient, -⟩ := roundAway_of_lt h
    have hsplit : (tenTo d.scale : ℚ) = tenTo (d.scale - places) * tenTo places := by
      rw [← Nat.cast_mul, ← tenTo_add, Nat.sub_add_cancel h.le]
    rw [hscale, hcoefficient, Nat.sub_self, tenTo_zero, Nat.mul_one, hsplit,
      mul_div_mul_right _ _ (tenTo_pos_rat places).ne', round_natCast_div _ (tenTo_pos _)]
  · -- no place is cut off
    have hsplit : (tenTo places : ℚ) = tenTo (places - d.scale) * tenTo d.scale := by
      rw [← Nat.cast_mul, ← tenTo_add, Nat.sub_add_cancel h]
    rw [roundAway_of_le h, hsplit, ← mul_assoc, mul_div_cancel_right₀ _ hpos.ne', ← Nat.cast_mul,
      round_natCast]

/-- A decimal is below zero if it has a sign and is not zero. -/
theorem toRat_lt_zero_iff (d : Decimal) :
    d.toRat < 0 ↔ d.negative = true ∧ d.isZero = false := by
  rw [toRat, div_lt_iff₀ (tenTo_pos_rat d.scale), zero_mul, ← Int.cast_zero, Int.cast_lt,
    ← Bool.not_eq_true, isZero_iff]
  unfold signedCoefficient
  cases d.negative with
  | true =>
    rw [if_pos rfl, Int.neg_lt_zero_iff]
    simp [Nat.pos_iff_ne_zero]
  | false => simp

/-- What is left of a decimal is zero if it is rounded to zero. -/
theorem isZero_roundAway (d : Decimal) (places : Nat) : (d.roundAway places).isZero = true ↔
    nearestAway (d.toRat * tenTo places) = 0 := by
  rw [isZero_iff, ← Int.natAbs_eq_zero, ← count_roundAway, Nat.mul_eq_zero]
  exact (or_iff_left (tenTo_pos _).ne').symm

/-- What is left of a decimal has a sign if it is below zero, or if it was a zero with a sign
already. -/
theorem negative_roundAway (d : Decimal) (places : Nat) : (d.roundAway places).negative = true ↔
    nearestAway (d.toRat * tenTo places) < 0 ∨ d.isZero = true ∧ d.negative = true := by
  have hten := tenTo_pos_rat places
  have hsign : d.toRat * tenTo places < 0 ↔ d.toRat < 0 := by
    simp [mul_neg_iff, hten, hten.not_gt]
  rw [nearestAway_lt_zero_iff, hsign, Ne, ← isZero_roundAway, toRat_lt_zero_iff]
  rcases Nat.lt_or_ge places d.scale with h | h
  · rw [(roundAway_of_lt h).2.2]
    cases d.isZero <;> cases d.negative <;> simp
  · rw [roundAway_of_le h]
    cases d.isZero <;> cases d.negative <;> simp

/-- What is left of a decimal is below zero if it has a sign and is not zero. -/
theorem nearestAway_lt_zero_iff_roundAway (d : Decimal) (places : Nat) :
    nearestAway (d.toRat * tenTo places) < 0 ↔
      (d.roundAway places).negative = true ∧ (d.roundAway places).isZero = false := by
  rw [negative_roundAway, ← Bool.not_eq_true, isZero_roundAway]
  constructor
  · intro hneg
    exact ⟨.inl hneg, hneg.ne⟩
  · rintro ⟨hneg | ⟨hzero, -⟩, hne⟩
    · exact hneg
    · -- a zero is rounded to zero
      refine absurd ?_ hne
      rw [toRat_of_isZero hzero, zero_mul, nearestAway_zero]

end RoundAway

end MarketAlerts.Decimal
