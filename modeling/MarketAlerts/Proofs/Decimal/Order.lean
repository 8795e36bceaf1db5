import MarketAlerts.Condition.Basic
import MarketAlerts.Proofs.Decimal.Range

/-!
# The order of decimals

Decimals are compared by cross multiplication, so that the scales in which they are written do not
matter.

## Main definitions

- `Operator.IsShort`, `Operator.Crosses`: the side of a threshold from which it is crossed, and a
  crossing from one value to the next;
- `Operator.IsOpposite`: two crossings in opposite directions.

## Main results

- `cmp_eq_compare`, `lt_iff`, `le_iff`: decimals are compared as their values are;
- `Operator.holds_iff_crosses`: an operator for crossings holds exactly if there is a value before
  and a crossing from it.
-/

namespace MarketAlerts

namespace Decimal

/-- Decimals are compared as their values are. -/
theorem cmp_eq_compare (a b : Decimal) : a.cmp b = compare a.toRat b.toRat := by
  -- the denominators are positive, so that multiplying with them keeps the order
  have ha := tenTo_pos_rat a.scale
  have hb := tenTo_pos_rat b.scale
  have hlt : a.signedCoefficient * tenTo b.scale < b.signedCoefficient * tenTo a.scale ↔
      a.toRat < b.toRat := by
    rw [toRat, toRat, div_lt_div_iff₀ ha hb]
    exact_mod_cast Iff.rfl
  have hgt : b.signedCoefficient * tenTo a.scale < a.signedCoefficient * tenTo b.scale ↔
      b.toRat < a.toRat := by
    rw [toRat, toRat, div_lt_div_iff₀ hb ha]
    exact_mod_cast Iff.rfl
  rw [cmp]
  rcases lt_trichotomy a.toRat b.toRat with h | h | h
  · rw [compare_lt_iff_lt.2 h, compare_lt_iff_lt.2 (hlt.2 h)]
  · rw [compare_eq_iff_eq.2 h, compare_eq_iff_eq]
    exact le_antisymm (not_lt.1 fun hlt' => (hgt.1 hlt').ne' h)
      (not_lt.1 fun hlt' => (hlt.1 hlt').ne h)
  · rw [compare_gt_iff_gt.2 h, compare_gt_iff_gt.2 (hgt.2 h)]

/-- Decimals are less where their values are. -/
theorem lt_iff (a b : Decimal) : a.lt b = true ↔ a.toRat < b.toRat := by
  rw [lt, cmp_eq_compare, beq_iff_eq, compare_lt_iff_lt]

/-- Decimals are at most what their values are. -/
theorem le_iff (a b : Decimal) : a.le b = true ↔ a.toRat ≤ b.toRat := by
  rw [le, cmp_eq_compare, bne_iff_ne, Ne, compare_gt_iff_gt, not_lt]

end Decimal

namespace Operator

/-- The values from which a threshold can be crossed. -/
def IsShort (value threshold : ℚ) : Operator → Prop
  | crossesAbove => value ≤ threshold
  | crossesBelow => threshold ≤ value
  | _ => False

/-- A crossing of a threshold, from one value to the next. -/
def Crosses (before after threshold : ℚ) : Operator → Prop
  | crossesAbove => before ≤ threshold ∧ threshold < after
  | crossesBelow => threshold ≤ before ∧ after < threshold
  | _ => False

/-- The one crosses from below and the other one from above. -/
def IsOpposite : Operator → Operator → Prop
  | crossesAbove, crossesBelow => True
  | crossesBelow, crossesAbove => True
  | _, _ => False

variable {o o' : Operator} {before after threshold : ℚ}

/-- A crossing begins short of the threshold and does not end there. -/
theorem Crosses.isShort (h : o.Crosses before after threshold) :
    o.IsShort before threshold ∧ ¬o.IsShort after threshold := by
  cases o <;> simp only [Crosses] at h
  · exact ⟨h.1, not_le.2 h.2⟩
  · exact ⟨h.1, not_le.2 h.2⟩

/-- One step does not cross a threshold in both directions. -/
theorem IsOpposite.not_crosses (h : o.IsOpposite o')
    (hcrosses : o.Crosses before after threshold) : ¬o'.Crosses before after threshold := by
  cases o <;> cases o' <;> simp only [IsOpposite] at h
  · exact fun hcrosses' => lt_asymm hcrosses.2 hcrosses'.2
  · exact fun hcrosses' => lt_asymm hcrosses.2 hcrosses'.2

/-- Opposite operators are both crossings. -/
theorem IsOpposite.isCrossing (h : o.IsOpposite o') :
    o.isCrossing = true ∧ o'.isCrossing = true := by
  cases o <;> cases o' <;> simp only [IsOpposite] at h <;> exact ⟨rfl, rfl⟩

/-- A crossing is seen exactly if there is a value before and a crossing from it. -/
theorem holds_iff_crosses (ho : o.isCrossing = true) (current : Decimal)
    (previous : Option Decimal) (threshold : Decimal) :
    o.holds current previous threshold = true ↔
      ∃ before ∈ previous, o.Crosses before.toRat current.toRat threshold.toRat := by
  cases o <;> simp only [isCrossing, Bool.false_eq_true] at ho
  · cases previous <;> simp [holds, Crosses, Decimal.le_iff, Decimal.lt_iff]
  · cases previous <;> simp [holds, Crosses, Decimal.le_iff, Decimal.lt_iff]

end Operator

end MarketAlerts
