import MarketAlerts.Text.Ellipsis

/-!
# Shortened text

A text that is too long is cut so that exactly as many characters are left as there may be, the dots
among them. A text that was cut before can be cut further: the earlier dots stand behind everything
that is kept, so that it comes to the same as one cut.

- `length_ellipsizeChars`: how long a shortened text is;
- `ellipsizeChars_ellipsizeChars`: two cuts, the second no longer than the first;
- `ellipsize_exact`: what a shortened text is.
-/

namespace MarketAlerts.Text

section Characters

variable {limit limit' : Nat} {cs : List Char}

/-- A text that is short enough stays. -/
theorem ellipsizeChars_of_le (h : cs.length ≤ limit) : ellipsizeChars limit cs = cs :=
  if_pos h

/-- A text that is too long gives way to the ellipsis at its end. -/
theorem ellipsizeChars_of_lt (h : limit < cs.length) :
    ellipsizeChars limit cs = cs.take (limit - ellipsis.length) ++ ellipsis.take limit :=
  if_neg (Nat.not_le.2 h)

theorem length_ellipsis : ellipsis.length = 3 :=
  rfl

/-- A text becomes no longer than it may be, and no shorter than it has to. -/
theorem length_ellipsizeChars (limit : Nat) (cs : List Char) :
    (ellipsizeChars limit cs).length = min limit cs.length := by
  rcases Nat.lt_or_ge limit cs.length with h | h
  · rw [ellipsizeChars_of_lt h, List.length_append, List.length_take, List.length_take,
      length_ellipsis]
    omega
  · rw [ellipsizeChars_of_le h, Nat.min_eq_right h]

/-- With no room beside them there are only dots. -/
theorem ellipsizeChars_of_lt_three (hlimit : limit < 3) (h : limit < cs.length) :
    ellipsizeChars limit cs = List.replicate limit '.' := by
  have hle : limit ≤ 3 := Nat.le_of_lt hlimit
  rw [ellipsizeChars_of_lt h, length_ellipsis, Nat.sub_eq_zero_of_le hle, List.take_zero,
    List.nil_append]
  show (List.replicate 3 '.').take limit = _
  rw [List.take_replicate, Nat.min_eq_left hle]

/-- Where there is room for all of the ellipsis it is written in full. -/
theorem ellipsizeChars_of_three_le (hlimit : 3 ≤ limit) (h : limit < cs.length) :
    ellipsizeChars limit cs = cs.take (limit - 3) ++ ['.', '.', '.'] := by
  rw [ellipsizeChars_of_lt h, List.take_of_length_le (l := ellipsis) hlimit]
  rfl

/-- A cut text is cut further as if it were whole. -/
theorem ellipsizeChars_ellipsizeChars (h : limit ≤ limit') (cs : List Char) :
    ellipsizeChars limit (ellipsizeChars limit' cs) = ellipsizeChars limit cs := by
  rcases Nat.lt_or_ge limit' cs.length with hlong | hshort
  · rcases Nat.eq_or_lt_of_le h with rfl | hlt
    · -- what is left has just the length that it may have
      exact ellipsizeChars_of_le (by rw [length_ellipsizeChars]; omega)
    · have hcut : limit < (ellipsizeChars limit' cs).length := by
        rw [length_ellipsizeChars]
        omega
      -- the characters that stay before the dots were before the dots of the first cut
      have hle : limit - ellipsis.length ≤ (cs.take (limit' - ellipsis.length)).length := by
        rw [List.length_take]
        omega
      rw [ellipsizeChars_of_lt hcut, ellipsizeChars_of_lt hlong,
        ellipsizeChars_of_lt (Nat.lt_trans hlt hlong), List.take_append_of_le_length hle,
        List.take_take, Nat.min_eq_left (Nat.sub_le_sub_right h _)]
  · rw [ellipsizeChars_of_le hshort]

end Characters

/-- A text that is no longer than it may be stays as it is. Any other is left with exactly as many
characters as it may have: its first ones and three dots, or, where three dots have no room, nothing
but dots. To cut a text that was cut before, to no fewer characters, is to cut the whole text; in
particular a second cut of the same length changes nothing. -/
theorem ellipsize_exact (limit : Nat) (s : String) :
    (s.length ≤ limit → ellipsize limit s = s) ∧
    (limit < s.length →
      (ellipsize limit s).length = limit ∧
      (3 ≤ limit → ellipsize limit s = String.ofList (s.toList.take (limit - 3)) ++ "...") ∧
      (limit < 3 → ellipsize limit s = String.ofList (List.replicate limit '.'))) ∧
    (∀ limit', limit ≤ limit' → ellipsize limit (ellipsize limit' s) = ellipsize limit s) ∧
    ellipsize limit (ellipsize limit s) = ellipsize limit s := by
  have htwice : ∀ limit', limit ≤ limit' →
      ellipsize limit (ellipsize limit' s) = ellipsize limit s := by
    intro limit' h
    rw [ellipsize, ellipsize, ellipsize, String.toList_ofList, ellipsizeChars_ellipsizeChars h]
  refine ⟨fun h => ?_, fun h => ⟨?_, fun hlimit => ?_, fun hlimit => ?_⟩, htwice,
    htwice limit (Nat.le_refl limit)⟩
  · rw [ellipsize, ellipsizeChars_of_le (by rwa [String.length_toList]), String.ofList_toList]
  all_goals rw [← String.length_toList] at h
  · rw [ellipsize, String.length_ofList, length_ellipsizeChars, Nat.min_eq_left (Nat.le_of_lt h)]
  · rw [ellipsize, ellipsizeChars_of_three_le hlimit h, String.ofList_append]
  · rw [ellipsize, ellipsizeChars_of_lt_three hlimit h]

/-- A greeting of eleven characters, some of them of several bytes, cut to two, to six and to eight
characters. -/
theorem ellipsize_exact_ofGreeting :
    "héllo wörld".length = 11 ∧ ellipsize 11 "héllo wörld" = "héllo wörld" ∧
      (ellipsize 6 "héllo wörld").length = 6 ∧ ellipsize 6 "héllo wörld" = "hél..." ∧
      ellipsize 2 "héllo wörld" = ".." ∧
      ellipsize 6 (ellipsize 8 "héllo wörld") = ellipsize 6 "héllo wörld" := by
  have hlength : "héllo wörld".length = 11 := by decide
  obtain ⟨hlong, hdots, -⟩ := (ellipsize_exact 6 "héllo wörld").2.1 (by omega)
  refine ⟨hlength, (ellipsize_exact 11 _).1 (Nat.le_of_eq hlength), hlong,
    (hdots (by decide)).trans (by decide +kernel),
    ((ellipsize_exact 2 "héllo wörld").2.1 (by omega)).2.2 (by decide),
    (ellipsize_exact 6 _).2.2.1 8 (by decide)⟩

end MarketAlerts.Text
