import MarketAlerts.Proofs.Decimal.Expansion
import MarketAlerts.Proofs.Decimal.Rounding
import MarketAlerts.Proofs.Template.Grammar
import MarketAlerts.Template.Value

/-!
# Amounts and percentages

An amount of money is written in cents and a percentage in tenths. Both are the nearest ones, so
that the text is an exact decimal expansion of a rounded number. A number that is rounded to zero
has no sign, but the percentage of a zero that has one keeps it, while its amount does not.

## Main definitions

- `IsGrouped`: digits in groups of three with commas between them;
- `minus`: the sign of what is below zero;
- `bare`: a text without what only makes it easier to read.

## Main results

- `isGrouped_groupThousands`: how the digits of an amount are grouped;
- `exists_expansion_roundAway`: a decimal that is cut to some places is written exactly;
- `exists_currencyText`, `exists_percentageText`: the two texts;
- `amount_exact`: what both of them have to do with the decimal;
- `percentage_of_negative_zero`: the zero that keeps its sign.
-/

namespace MarketAlerts.Template

open Decimal (nearestAway IsExpansion IsNumeral)

/-- Groups of three digits with commas between them; the first group may have fewer, but it has
one. -/
def IsGrouped (ds text : List Char) : Prop :=
  ∃ (first : List Char) (groups : List (List Char)),
    0 < first.length ∧ first.length ≤ 3 ∧ (∀ g ∈ groups, g.length = 3) ∧
    ds = first ++ groups.flatten ∧ text = first ++ groups.flatMap (',' :: ·)

/-- A minus sign, if there has to be one. -/
def minus (negative : Prop) [Decidable negative] : List Char := if negative then ['-'] else []

/-- A text without commas and units. -/
def bare (text : List Char) : List Char := text.filter fun c => c ∉ [',', '$', '%']

/-! ## Groups -/

section Groups

variable {ds text : List Char}

/-- Digits are grouped in threes from the right. -/
theorem isGrouped_groupThousands (hne : ds ≠ []) :
    IsGrouped ds (Formatter.groupThousands ds) := by
  induction ds with
  | nil => exact absurd rfl hne
  | cons c ds ih =>
    rw [Formatter.groupThousands]
    rcases ds.eq_nil_or_concat with rfl | ⟨_, _, hconcat⟩
    · exact ⟨[c], [], by simp, by simp, by simp, rfl, rfl⟩
    have hds : ds ≠ [] := by simp [hconcat]
    obtain ⟨first, groups, hpos, hle, hgroups, hflat, htext⟩ := ih hds
    have hlength : ds.length = first.length + 3 * groups.length := by
      have hflatten : groups.flatten.length = 3 * groups.length := by
        rw [List.length_flatten, List.map_congr_left hgroups]
        simp [Nat.mul_comm]
      rw [hflat, List.length_append, hflatten]
    split
    next hfull =>
      -- the first group is full, and the digit begins another one
      refine ⟨[c], first :: groups, by simp, by simp, ?_, ?_, ?_⟩
      · exact List.forall_mem_cons.2 ⟨by omega, hgroups⟩
      · simp [hflat]
      · simp [htext]
    next hroom =>
      have hless : first.length ≠ 3 := fun hfull => hroom ⟨hds, by omega⟩
      refine ⟨c :: first, groups, by simp, ?_, hgroups, by simp [hflat], by simp [htext]⟩
      rw [List.length_cons]
      omega

/-- Digits are none of the characters that are left out. -/
theorem bare_of_isDigit (hds : ∀ c ∈ ds, c.isDigit = true) : bare ds = ds := by
  refine List.filter_eq_self.2 fun c hc => decide_eq_true ?_
  intro hmem
  have hdigit := hds c hc
  simp only [List.mem_cons, List.not_mem_nil, or_false] at hmem
  rcases hmem with rfl | rfl | rfl <;> cases hdigit

theorem bare_append (s t : List Char) : bare (s ++ t) = bare s ++ bare t :=
  List.filter_append ..

/-- A sign stays. -/
theorem bare_minus (negative : Prop) [Decidable negative] :
    bare (minus negative) = minus negative := by
  unfold minus
  split <;> rfl

/-- Without its commas, a text is the digits that it groups. -/
theorem IsGrouped.bare_eq (h : IsGrouped ds text) (hds : ∀ c ∈ ds, c.isDigit = true) :
    bare text = ds := by
  obtain ⟨first, groups, -, -, -, rfl, rfl⟩ := h
  rw [List.forall_mem_append] at hds
  rw [bare_append, bare_of_isDigit hds.1, List.append_cancel_left_eq, ← bare_of_isDigit hds.2]
  -- both sides leave the same out, group by group
  unfold bare
  rw [List.filter_flatMap, List.filter_flatten, List.flatMap_def]
  simp

end Groups

/-! ## Texts -/

theorem tenTo_one_rat : (tenTo 1 : ℚ) = 10 := by
  norm_num [tenTo]

theorem tenTo_two_rat : (tenTo 2 : ℚ) = 100 := by
  norm_num [tenTo]

/-- A decimal that is cut to some places is written as an expansion of the nearest number, with its
sign before it. -/
theorem exists_expansion_roundAway (d : Decimal) {places : Nat} (hplaces : 0 < places) :
    ∃ whole fraction,
      IsExpansion (nearestAway (d.toRat * tenTo places)).natAbs places whole fraction ∧
      ((d.roundAway places).abs.fixed places).toList = whole ++ '.' :: fraction ∧
      ((d.roundAway places).fixed places).toList =
        minus ((d.roundAway places).negative = true) ++ whole ++ '.' :: fraction := by
  obtain ⟨whole, fraction, hexpansion, htext⟩ := Decimal.exists_expansion_pointed
    (nearestAway (d.toRat * tenTo places)).natAbs hplaces
  have hscale : (d.roundAway places).scale ≤ places := d.scale_roundAway places
  have habs : (d.roundAway places).abs.scale ≤ places := hscale
  rw [← d.count_roundAway places] at htext
  refine ⟨whole, fraction, hexpansion, ?_, ?_⟩
  · rw [Decimal.fixed_of_scale_le habs, ← htext]
    rfl
  · rw [Decimal.fixed_of_scale_le hscale, String.toList_append, htext, List.append_assoc, minus]
    split <;> rfl

/-- An amount: its sign, the currency, the grouped digits, and two places. -/
theorem exists_currencyText (d : Decimal) : ∃ whole grouped fraction,
    IsExpansion (nearestAway (d.toRat * 100)).natAbs 2 whole fraction ∧ IsGrouped whole grouped ∧
      (Formatter.currencyText d).toList =
        minus (nearestAway (d.toRat * 100) < 0) ++ '$' :: grouped ++ '.' :: fraction := by
  obtain ⟨whole, fraction, hexpansion, hdigits, -⟩ := exists_expansion_roundAway d two_pos
  have hsign := d.nearestAway_lt_zero_iff_roundAway 2
  rw [tenTo_two_rat] at hexpansion hsign
  have hpoint : ∀ c ∈ whole, (c != '.') = true := by
    intro c hc
    have hdigit := hexpansion.isNumeral.isDigit c hc
    rw [bne_iff_ne]
    rintro rfl
    cases hdigit
  obtain ⟨htake, hdrop⟩ := takeWhile_dropWhile_append hpoint
    (show ∀ c ∈ ('.' :: fraction).head?, (c != '.') = false by simp)
  refine ⟨whole, _, fraction, hexpansion,
    isGrouped_groupThousands hexpansion.isNumeral.ne_nil, ?_⟩
  rw [Formatter.currencyText]
  simp only [hdigits, htake, hdrop, String.toList_append, String.toList_ofList]
  -- the sign is left out of a zero
  cases hnegative : (d.roundAway 2).negative <;> cases hzero : (d.roundAway 2).isZero <;>
    simp [minus, hsign, hnegative, hzero]

/-- A percentage: its sign, the digits, and one place. -/
theorem exists_percentageText (d : Decimal) : ∃ whole fraction,
    IsExpansion (nearestAway (d.toRat * 10)).natAbs 1 whole fraction ∧
      (Formatter.percentageText d).toList =
        minus (nearestAway (d.toRat * 10) < 0 ∨ d.isZero = true ∧ d.negative = true) ++ whole ++
          '.' :: fraction ++ ['%'] := by
  obtain ⟨whole, fraction, hexpansion, -, hdigits⟩ := exists_expansion_roundAway d one_pos
  have hnegative := d.negative_roundAway 1
  rw [tenTo_one_rat] at hexpansion hnegative
  refine ⟨whole, fraction, hexpansion, ?_⟩
  rw [Formatter.percentageText, String.toList_append, hdigits]
  simp only [hnegative]
  rfl

/-- A zero with a sign is written with it. -/
theorem percentageText_of_isZero {d : Decimal} (hzero : d.isZero = true)
    (hnegative : d.negative = true) : Formatter.percentageText d = "-0.0%" := by
  have hcount := d.count_roundAway 1
  rw [Decimal.toRat_of_isZero hzero, zero_mul, Decimal.nearestAway_zero, Int.natAbs_zero] at hcount
  have hsign : (d.roundAway 1).negative = true :=
    (d.negative_roundAway 1).2 (.inr ⟨hzero, hnegative⟩)
  rw [Formatter.percentageText, Decimal.fixed_of_scale_le (d.scale_roundAway 1), hcount,
    if_pos hsign]
  decide +kernel

/-- No other number than zero is written like a zero with a sign. -/
theorem negative_of_minus_append {n : Nat} {negative : Prop} [Decidable negative]
    {whole fraction : List Char} (h : IsExpansion n 1 whole fraction)
    (htext : minus negative ++ whole ++ '.' :: fraction ++ ['%'] = ['-', '0', '.', '0', '%']) :
    negative ∧ n = 0 := by
  obtain ⟨f, rfl⟩ := List.length_eq_one_iff.1 h.length
  obtain ⟨w, rest, rfl⟩ := List.exists_cons_of_ne_nil h.isNumeral.ne_nil
  -- the text has five characters, so that only one digit is left for the whole part
  by_cases hnegative : negative
  · rw [minus, if_pos hnegative] at htext
    have hrest : rest = [] := by
      have hlength := congrArg List.length htext
      simp only [List.length_append, List.length_cons, List.length_nil] at hlength
      exact List.length_eq_zero_iff.1 (by omega)
    subst hrest
    simp only [List.cons_append, List.nil_append, List.cons.injEq, true_and, and_true] at htext
    obtain ⟨rfl, rfl⟩ := htext
    exact ⟨hnegative, h.value.symm⟩
  · -- a digit would have to be a minus sign
    rw [minus, if_neg hnegative] at htext
    have hw : w = '-' := (List.cons.inj htext).1
    have hdigit := h.isNumeral.isDigit w List.mem_cons_self
    rw [hw] at hdigit
    cases hdigit

/-- An amount and a percentage, for any decimal.

- An amount is the decimal expansion of the nearest number of cents, with two places, but for its
  currency and for the commas that group the digits before the point in threes. It has a minus sign
  if and only if that number is below zero.
- A percentage is the decimal expansion of the nearest number of tenths, with one place, but for the
  sign behind it. It has a minus sign if and only if that number is below zero, or the decimal is a
  zero that has one; so `-0.0%` is written for such a zero and for nothing else.
-/
theorem amount_exact (d : Decimal) :
    (∃ text whole grouped fraction,
      let cents := nearestAway (d.toRat * 100)
      Formatter.currency.text? (.decimal d) = some text ∧
      text.toList = minus (cents < 0) ++ '$' :: grouped ++ '.' :: fraction ∧
      bare text.toList = minus (cents < 0) ++ whole ++ '.' :: fraction ∧
      IsExpansion cents.natAbs 2 whole fraction ∧ IsGrouped whole grouped) ∧
    (∃ text whole fraction,
      let tenths := nearestAway (d.toRat * 10)
      let negativeZero := d.isZero = true ∧ d.negative = true
      Formatter.percentage.text? (.decimal d) = some text ∧
      text.toList = minus (tenths < 0 ∨ negativeZero) ++ whole ++ '.' :: fraction ++ ['%'] ∧
      bare text.toList = minus (tenths < 0 ∨ negativeZero) ++ whole ++ '.' :: fraction ∧
      IsExpansion tenths.natAbs 1 whole fraction ∧
      (text = "-0.0%" ↔ negativeZero)) := by
  constructor
  · obtain ⟨whole, grouped, fraction, hexpansion, hgrouped, htext⟩ := exists_currencyText d
    refine ⟨_, whole, grouped, fraction, rfl, htext, ?_, hexpansion, hgrouped⟩
    -- what is left of the text without separators and signs is the expansion
    have hunit : bare ('$' :: grouped) = whole := hgrouped.bare_eq hexpansion.isNumeral.isDigit
    have hplaces : bare ('.' :: fraction) = '.' :: fraction :=
      congrArg ('.' :: ·) (bare_of_isDigit hexpansion.isDigit)
    rw [htext, bare_append, bare_append, bare_minus, hunit, hplaces]
  · obtain ⟨whole, fraction, hexpansion, htext⟩ := exists_percentageText d
    have hplaces : bare ('.' :: fraction ++ ['%']) = '.' :: fraction := by
      rw [bare_append]
      exact congrArg ('.' :: ·) ((List.append_nil _).trans (bare_of_isDigit hexpansion.isDigit))
    refine ⟨_, whole, fraction, rfl, htext, ?_, hexpansion, ?_⟩
    · rw [htext, List.append_assoc, bare_append, bare_append, bare_minus, hplaces,
        bare_of_isDigit hexpansion.isNumeral.isDigit]
    · constructor
      · -- a minus before a zero is written for a negative zero only
        intro hnegativeZero
        rw [hnegativeZero] at htext
        obtain ⟨hminus, hzero⟩ := negative_of_minus_append hexpansion htext.symm
        rw [Int.natAbs_eq_zero] at hzero
        exact hminus.resolve_left hzero.not_lt
      · rintro ⟨hzero, hnegative⟩
        exact percentageText_of_isZero hzero hnegative

example :
    let d : Decimal := { negative := true, coefficient := 1234565, scale := 3
                         coefficient_lt := by decide, scale_le := by decide }
    Formatter.currency.text? (.decimal d) = some "-$1,234.57" ∧
      Formatter.percentage.text? (.decimal d) = some "-1234.6%" := by
  decide +kernel

/-- A zero that has a sign keeps it as a percentage, although it is not below zero; as an amount it
loses it. -/
theorem percentage_of_negative_zero :
    let d : Decimal := { negative := true, coefficient := 0, scale := 0
                         coefficient_lt := by decide, scale_le := by decide }
    nearestAway (d.toRat * 10) = 0 ∧ Formatter.percentage.text? (.decimal d) = some "-0.0%" ∧
      Formatter.currency.text? (.decimal d) = some "$0.00" := by
  intro d
  refine ⟨?_, congrArg some (percentageText_of_isZero rfl rfl), by decide +kernel⟩
  rw [Decimal.toRat_of_isZero rfl, zero_mul, Decimal.nearestAway_zero]

end MarketAlerts.Template
