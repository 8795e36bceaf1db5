import MarketAlerts.Decimal.Text
import MarketAlerts.Proofs.Instant.Rfc3339

/-!
# Decimal expansions

A coefficient is written with a point before its last places. Zeros are put before it only as far as
there has to be a digit before the point.

## Main definitions

- `IsNumeral`: digits without a superfluous zero at their front;
- `IsExpansion`: the digits before and after the point.

## Main results

- `exists_expansion_pointed`: what a coefficient with a point is;
- `fixed_of_scale_le`: a decimal with places to spare is written with all of its digits.
-/

namespace MarketAlerts.Decimal

/-- Digits, the first of which is zero only if there is no other. -/
structure IsNumeral (ds : List Char) : Prop where
  isDigit : ∀ c ∈ ds, c.isDigit = true
  ne_nil : ds ≠ []
  eq_zero : ds.head? = some '0' → ds = ['0']

/-- The digits of `n / 10 ^ places` before and after the point. -/
structure IsExpansion (n places : Nat) (whole fraction : List Char) : Prop where
  isNumeral : IsNumeral whole
  isDigit : ∀ c ∈ fraction, c.isDigit = true
  length : fraction.length = places
  value : Nat.ofDigitChars 10 (whole ++ fraction) 0 = n

/-! ## Numerals -/

theorem toDigits_ne_nil (n : Nat) : Nat.toDigits 10 n ≠ [] :=
  List.ne_nil_of_length_pos Nat.length_toDigits_pos

/-- Only the digits of zero begin with a zero. -/
theorem eq_zero_of_head?_toDigits {n : Nat} (h : (Nat.toDigits 10 n).head? = some '0') :
    n = 0 := by
  induction n using Nat.strongRecOn with | _ n ih
  rcases Nat.lt_or_ge n 10 with hlt | hge
  · have hdigit : ∀ n < 10, n.digitChar = '0' → n = 0 := by decide
    rw [Nat.toDigits_of_lt_base hlt, List.head?_cons, Option.some.injEq] at h
    exact hdigit n hlt h
  · -- the first digit is that of a tenth
    rw [Nat.toDigits_of_base_le (by decide) hge, List.head?_append,
      List.head?_eq_some_head (toDigits_ne_nil _), Option.some_or,
      ← List.head?_eq_some_head] at h
    have htenth := ih (n / 10) (by omega) h
    omega

/-- The digits of a number are a numeral. -/
theorem isNumeral_toDigits (n : Nat) : IsNumeral (Nat.toDigits 10 n) where
  isDigit _ hc := Nat.isDigit_of_mem_toDigits (by decide) (by decide) hc
  ne_nil := toDigits_ne_nil n
  eq_zero h := by
    rw [eq_zero_of_head?_toDigits h]
    rfl

/-- The front of a numeral is one. -/
theorem IsNumeral.take {ds : List Char} (h : IsNumeral ds) {count : Nat} (hcount : 0 < count) :
    IsNumeral (ds.take count) where
  isDigit c hc := h.isDigit c (List.mem_of_mem_take hc)
  ne_nil := by simpa [h.ne_nil] using Nat.ne_of_gt hcount
  eq_zero hhead := by
    rw [List.head?_take, if_neg (Nat.ne_of_gt hcount)] at hhead
    rw [h.eq_zero hhead, List.take_of_length_le hcount]

/-! ## The point -/

/-- The point stands before the last digits. -/
theorem toList_pointed (n : Nat) {places : Nat} (hplaces : 0 < places) :
    let ds := (Instant.padded (places + 1) n).toList
    (pointed n places).toList =
      ds.take (ds.length - places) ++ '.' :: ds.drop (ds.length - places) := by
  have hpadded : pointed n places =
      let padded := Instant.padded (places + 1) n
      (padded.take (padded.length - places)).toString ++ "." ++
        (padded.drop (padded.length - places)).toString := if_neg (Nat.ne_of_gt hplaces)
  rw [hpadded]
  simp [String.Slice.toString, String.length_toList]

/-- A coefficient with a point before its last places is an expansion. -/
theorem exists_expansion_pointed (n : Nat) {places : Nat} (hplaces : 0 < places) :
    ∃ whole fraction, IsExpansion n places whole fraction ∧
      (pointed n places).toList = whole ++ '.' :: fraction := by
  have hlist := toList_pointed n hplaces
  have hzeros : (Instant.padded (places + 1) n).toList =
      List.replicate (places + 1 - (Nat.toDigits 10 n).length) '0' ++ Nat.toDigits 10 n :=
    Instant.toList_padded
  have hdigits : ∀ c ∈ (Instant.padded (places + 1) n).toList, c.isDigit = true :=
    Instant.isDigit_of_mem_padded
  have hvalue : Nat.ofDigitChars 10 (Instant.padded (places + 1) n).toList 0 = n :=
    Instant.ofDigitChars_padded
  -- nothing else is needed of the padded digits
  generalize (Instant.padded (places + 1) n).toList = ds at hlist hzeros hdigits hvalue
  have hlong : places < ds.length := by
    rw [hzeros, List.length_append, List.length_replicate]
    omega
  have hwhole : IsNumeral (ds.take (ds.length - places)) := by
    rcases Nat.lt_or_ge places (Nat.toDigits 10 n).length with hmany | hfew
    · -- there are enough digits without zeros before them
      rw [Nat.sub_eq_zero_of_le hmany, List.replicate_zero, List.nil_append] at hzeros
      rw [hzeros]
      exact (isNumeral_toDigits n).take (Nat.sub_pos_of_lt hmany)
    · -- one of the zeros stands before the point, and nothing else
      have hfront : ds.take (ds.length - places) = ['0'] := by
        have hcount : ds.length - places = 1 := by
          rw [hzeros, List.length_append, List.length_replicate]
          omega
        rw [hcount, hzeros, Nat.succ_sub hfew, List.replicate_succ]
        rfl
      rw [hfront]
      exact isNumeral_toDigits 0
  refine ⟨_, _, ⟨hwhole, fun c hc => hdigits c (List.mem_of_mem_drop hc), ?_, ?_⟩, hlist⟩
  · rw [List.length_drop]
    omega
  · rw [List.take_append_drop, hvalue]

/-- A decimal with places to spare is written with all of its digits. -/
theorem fixed_of_scale_le {d : Decimal} {places : Nat} (h : d.scale ≤ places) :
    d.fixed places = (if d.negative then "-" else "") ++
      pointed (d.coefficient * tenTo (places - d.scale)) places := by
  rw [fixed, Nat.sub_eq_zero_of_le h, tenTo_zero, Nat.div_one]

end MarketAlerts.Decimal
