import MarketAlerts.Decimal.Arithmetic
import Mathlib.Algebra.Order.Field.Rat
import Mathlib.Algebra.Order.Field.Basic
import Mathlib.Algebra.Order.AbsoluteValue.Basic
import Mathlib.Tactic.FieldSimp
import Mathlib.Tactic.Linarith
import Mathlib.Tactic.NormNum
import Mathlib.Tactic.Ring
import Mathlib.Tactic.SplitIfs

/-!
# The range of decimals

A difference or a product of decimals is rounded to as many places as fit, down to none. So it
leaves the range exactly if its value, rounded to a whole number, has no 96 bits: if it is at least
`2 ^ 96 - 1 / 2` in size, because a half is rounded to the even neighbour.

## Main definitions

- `toRat`: the value of a decimal.

## Main results

- `le_divHalfEven_iff`: when a rounded quotient reaches an even bound;
- `fit?_eq_none_iff`: a coefficient fits unless it does not without places;
- `sub?_eq_none_iff`, `mul?_eq_none_iff`: when differences and products leave the range.
-/

namespace MarketAlerts.Decimal

/-! ## Rounding -/

/-- A half below an even bound is rounded up to the bound. -/
theorem le_divHalfEven_iff {bound : Nat} (heven : bound % 2 = 0) (hpos : 0 < bound) (num : Nat)
    {den : Nat} (hden : 0 < den) :
    bound ≤ divHalfEven num den ↔ (2 * bound - 1) * den ≤ 2 * num := by
  have hnum : den * (num / den) + num % den = num := Nat.div_add_mod num den
  have hlt : num % den < den := Nat.mod_lt num hden
  unfold divHalfEven
  dsimp only
  -- from here on the quotient and the rest are only what division says of them
  generalize num / den = q at hnum ⊢
  generalize num % den = r at hnum hlt ⊢
  rcases Nat.lt_trichotomy (q + 1) bound with hq | hq | hq
  · -- the quotient is more than one below the bound
    have hmul : (2 * q + 2) * den ≤ (2 * bound - 1) * den := Nat.mul_le_mul_right _ (by omega)
    have hexpand : (2 * q + 2) * den = 2 * (den * q) + 2 * den := by ring
    constructor
    · intro h
      split_ifs at h <;> omega
    · intro h
      omega
  · -- the quotient is one below the bound, so that it is odd
    have hmul : (2 * bound - 1) * den = 2 * (den * q) + den := by
      rw [← hq, show 2 * (q + 1) - 1 = 2 * q + 1 by omega]
      ring
    rw [hmul]
    constructor
    · intro h
      split_ifs at h <;> omega
    · intro h
      split_ifs <;> omega
  · -- the quotient has reached the bound
    have hmul : (2 * bound - 1) * den ≤ 2 * q * den := Nat.mul_le_mul_right _ (by omega)
    have hexpand : 2 * q * den = 2 * (den * q) := by ring
    constructor
    · intro _
      omega
    · intro _
      split_ifs <;> omega

/-- There is room for a coefficient. -/
theorem limit_pos : 0 < limit := twoTo_pos 96

/-- Half of the limit is a whole number. -/
theorem limit_even : limit % 2 = 0 := by decide

/-- More places are worth more. -/
theorem tenTo_le_tenTo {m n : Nat} (h : m ≤ n) : tenTo m ≤ tenTo n :=
  Nat.pow_le_pow_right (by decide) h

/-- Parts in range make a decimal. -/
theorem isSome_ofParts? (negative : Bool) {coefficient scale : Nat}
    (hcoefficient : coefficient < limit) (hscale : scale ≤ maxScale) :
    (ofParts? negative coefficient scale).isSome := by
  unfold ofParts?
  rw [dif_pos ⟨hcoefficient, hscale⟩, Option.isSome_some]

/-- With fewer places the coefficient is smaller, so that it fits for some number of places unless
it does not without any. -/
theorem fit?_eq_none_iff (negative : Bool) (n scale : Nat) :
    fit? negative n scale = none ↔ (2 * limit - 1) * tenTo scale ≤ 2 * n := by
  -- with so many places the number does not fit if it is rounded to the limit
  have hplaces : ∀ places : Nat, places ≤ maxScale →
      ((if divHalfEven n (tenTo (scale - places)) < limit then
        ofParts? negative (divHalfEven n (tenTo (scale - places))) places else none) = none ↔
        (2 * limit - 1) * tenTo (scale - places) ≤ 2 * n) := by
    intro places hle
    rw [← le_divHalfEven_iff limit_even limit_pos n (tenTo_pos _)]
    split
    next hlt =>
      have hsome := isSome_ofParts? negative hlt hle
      simp [Option.isSome_iff_ne_none.1 hsome, hlt]
    next hge => simpa using hge
  unfold fit?
  rw [List.findSome?_eq_none_iff]
  constructor
  · intro h
    have hzero := h 0 (by simp)
    rwa [hplaces 0 (Nat.zero_le _)] at hzero
  · -- a number that does not fit without places does not fit with any
    intro h places hmem
    rw [List.mem_reverse, List.mem_range] at hmem
    rw [hplaces places (by omega)]
    exact Nat.le_trans (Nat.mul_le_mul_left _ (tenTo_le_tenTo (Nat.sub_le _ _))) h

/-! ## Values -/

/-- The value of a decimal. -/
def toRat (d : Decimal) : ℚ := d.signedCoefficient / tenTo d.scale

/-- Powers of ten are positive as fractions, too. -/
theorem tenTo_pos_rat (n : Nat) : (0 : ℚ) < tenTo n := by
  exact_mod_cast tenTo_pos n

/-- A decimal times a power of ten that holds all of its places is a whole number. -/
theorem toRat_mul_tenTo (d : Decimal) {scale : Nat} (h : d.scale ≤ scale) :
    d.toRat * tenTo scale = d.signedCoefficient * tenTo (scale - d.scale) := by
  have hscale : (tenTo scale : ℚ) = tenTo (scale - d.scale) * tenTo d.scale := by
    rw [← Nat.cast_mul, ← tenTo_add, Nat.sub_add_cancel h]
  have hpos := tenTo_pos_rat d.scale
  rw [toRat, hscale]
  field_simp

/-- The sign does not matter to the size of a coefficient. -/
theorem abs_signedCoefficient (d : Decimal) : |(d.signedCoefficient : ℚ)| = d.coefficient := by
  unfold signedCoefficient
  split <;> simp

/-- The size of a decimal is its coefficient with the point in its place. -/
theorem abs_toRat (d : Decimal) : |d.toRat| = d.coefficient / tenTo d.scale := by
  rw [toRat, abs_div, abs_signedCoefficient, abs_of_pos (tenTo_pos_rat d.scale)]

/-- Every decimal is in range. -/
theorem abs_toRat_lt (d : Decimal) : |d.toRat| < (limit : ℚ) - 1 / 2 := by
  have hone : (1 : ℚ) ≤ tenTo d.scale := by exact_mod_cast tenTo_pos d.scale
  have hcoefficient : (d.coefficient : ℚ) + 1 ≤ limit := by exact_mod_cast d.coefficient_lt
  have hle : (d.coefficient : ℚ) / tenTo d.scale ≤ d.coefficient :=
    div_le_self (Nat.cast_nonneg _) hone
  rw [abs_toRat]
  linarith

/-- A zero is worth nothing, whatever its sign and its places. -/
theorem toRat_of_isZero {d : Decimal} (h : d.isZero = true) : d.toRat = 0 := by
  have hzero : d.coefficient = 0 := by simpa [isZero] using h
  simp [toRat, signedCoefficient, hzero]

/-- What is rounded is out of range if its value is. -/
theorem fit?_eq_none_iff_toRat (negative : Bool) {n scale : Nat} {x : ℚ}
    (hx : (n : ℚ) = |x| * tenTo scale) :
    fit? negative n scale = none ↔ (limit : ℚ) - 1 / 2 ≤ |x| := by
  have hpos := tenTo_pos_rat scale
  have hlimit : ((2 * limit - 1 : Nat) : ℚ) = 2 * limit - 1 := by
    rw [Nat.cast_sub (by have := limit_pos; omega)]
    push_cast
    ring
  rw [fit?_eq_none_iff, ← Nat.cast_le (α := ℚ), Nat.cast_mul, Nat.cast_mul, hlimit, hx]
  push_cast
  constructor
  · intro h
    have hle : (2 * (limit : ℚ) - 1) * tenTo scale ≤ (2 * |x|) * tenTo scale := by linarith
    linarith [le_of_mul_le_mul_right hle hpos]
  · intro h
    have hle := mul_le_mul_of_nonneg_right h hpos.le
    linarith

/-! ## Operations -/

/-- A difference leaves the range if its value does. -/
theorem sub?_eq_none_iff (a b : Decimal) :
    a.sub? b = none ↔ (limit : ℚ) - 1 / 2 ≤ |a.toRat - b.toRat| := by
  unfold sub?
  split
  next ha =>
    -- the difference is the other operand
    have hlt := b.abs_toRat_lt
    rw [toRat_of_isZero ha, zero_sub, abs_neg]
    exact iff_of_false (Option.some_ne_none _) (not_le.2 hlt)
  next ha =>
    split
    next hb =>
      have hlt := a.abs_toRat_lt
      rw [toRat_of_isZero hb, sub_zero]
      exact iff_of_false (Option.some_ne_none _) (not_le.2 hlt)
    next hb =>
      refine fit?_eq_none_iff_toRat _ ?_
      have hcast : ((a.signedCoefficient * tenTo (max a.scale b.scale - a.scale) -
          b.signedCoefficient * tenTo (max a.scale b.scale - b.scale) : Int) : ℚ) =
          (a.toRat - b.toRat) * tenTo (max a.scale b.scale) := by
        rw [sub_mul, toRat_mul_tenTo a (Nat.le_max_left ..),
          toRat_mul_tenTo b (Nat.le_max_right ..)]
        push_cast
        rfl
      rw [Nat.cast_natAbs, Int.cast_abs, hcast, abs_mul, abs_of_pos (tenTo_pos_rat _)]

/-- A product leaves the range if its value does. -/
theorem mul?_eq_none_iff (a b : Decimal) :
    a.mul? b = none ↔ (limit : ℚ) - 1 / 2 ≤ |a.toRat * b.toRat| := by
  have hlimit : (0 : ℚ) < (limit : ℚ) - 1 / 2 := lt_of_le_of_lt (abs_nonneg _) a.abs_toRat_lt
  unfold mul?
  split
  next hzero =>
    -- a product with zero is zero
    have hprod : a.toRat * b.toRat = 0 := by
      rcases Bool.or_eq_true _ _ ▸ hzero with ha | hb
      · rw [toRat_of_isZero ha, zero_mul]
      · rw [toRat_of_isZero hb, mul_zero]
    rw [hprod, abs_zero]
    exact iff_of_false (Option.some_ne_none _) (not_le.2 hlimit)
  next =>
    refine fit?_eq_none_iff_toRat _ ?_
    have ha := tenTo_pos_rat a.scale
    have hb := tenTo_pos_rat b.scale
    rw [abs_mul, abs_toRat, abs_toRat, tenTo_add]
    push_cast
    field_simp

end MarketAlerts.Decimal
