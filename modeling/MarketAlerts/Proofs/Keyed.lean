import Mathlib.Data.List.Pairwise
import Mathlib.Data.String.Basic
import MarketAlerts.Keyed

/-!
# Looking up in lists sorted by key

- `lookup_insert_self`, `lookup_insert_of_ne`: what stands under a key after an insertion, in any
  list;
- `IsSorted.insert`, `IsSorted.filter`: keys keep rising;
- `IsSorted.foldl_insert_nil`, `IsSorted.foldl_insert_of_subset`: a sorted list is built again from
  its members, and nothing changes if they are inserted once more.
-/

namespace MarketAlerts.Keyed

/-! ## Any keys -/

section Lookup

variable {κ α : Type*} [BEq κ] [LawfulBEq κ] {xs : List (κ × α)} {k : κ} {x : α}

/-- Where keys are distinct, a value is found under a key if it stands there. -/
theorem lookup_eq_some_iff_mem (h : (xs.map Prod.fst).Nodup) :
    xs.lookup k = some x ↔ (k, x) ∈ xs := by
  induction xs with
  | nil => simp
  | cons y ys ih =>
    obtain ⟨k', y⟩ := y
    rw [List.map_cons, List.nodup_cons] at h
    rw [List.lookup_cons, List.mem_cons, Prod.mk.injEq]
    cases hk : k == k' with
    | true =>
      obtain rfl : k = k' := beq_iff_eq.1 hk
      have hnotMem : (k, x) ∉ ys := fun hmem =>
        h.1 (List.mem_map.2 ⟨(k, x), hmem, rfl⟩)
      simp [hnotMem, eq_comm]
    | false =>
      rw [ih h.2]
      simp [beq_eq_false_iff_ne.1 hk]

end Lookup

/-! ## Sorted lists -/

variable {α : Type} {xs ys : List (String × α)} {key k : String} {value : α}

/-- The keys rise. -/
def IsSorted (xs : List (String × α)) : Prop := xs.Pairwise fun p q => p.1 < q.1

/-- What is inserted is found under its key. -/
theorem lookup_insert_self (key : String) (value : α) (xs : List (String × α)) :
    (insert key value xs).lookup key = some value := by
  induction xs with
  | nil => simp [insert]
  | cons p rest ih =>
    rw [insert]
    split
    next => simp
    next =>
      split
      next => simp
      next hne => rw [List.lookup_cons, beq_eq_false_iff_ne.2 hne, ih]

/-- What stands under other keys stays. -/
theorem lookup_insert_of_ne (h : k ≠ key) (value : α) (xs : List (String × α)) :
    (insert key value xs).lookup k = xs.lookup k := by
  have hk : (k == key) = false := beq_eq_false_iff_ne.2 h
  induction xs with
  | nil => simp [insert, h]
  | cons p rest ih =>
    rw [insert]
    split
    next => rw [List.lookup_cons, hk]
    next =>
      split
      next heq => rw [List.lookup_cons, List.lookup_cons, ← heq, hk]
      next => rw [List.lookup_cons, List.lookup_cons, ih]

/-- An insertion brings one member and no others. -/
theorem mem_insert {p : String × α} (h : p ∈ insert key value xs) : p = (key, value) ∨ p ∈ xs := by
  induction xs with
  | nil => exact .inl (List.mem_singleton.1 h)
  | cons q rest ih =>
    rw [insert] at h
    split at h
    next => exact List.mem_cons.1 h
    next =>
      split at h
      next => exact (List.mem_cons.1 h).imp_right (List.mem_cons_of_mem q)
      next =>
        rcases List.mem_cons.1 h with rfl | h
        · exact .inr List.mem_cons_self
        · exact (ih h).imp_right (List.mem_cons_of_mem q)

theorem IsSorted.nodup_keys (h : IsSorted xs) : (xs.map Prod.fst).Nodup :=
  List.pairwise_map.2 (h.imp ne_of_lt)

/-- Some of the members of a sorted list are sorted. -/
theorem IsSorted.filter (h : IsSorted xs) (p : String × α → Bool) : IsSorted (xs.filter p) :=
  List.Pairwise.filter p h

/-- A sorted list stays so by an insertion. -/
theorem IsSorted.insert (h : IsSorted xs) (key : String) (value : α) :
    IsSorted (insert key value xs) := by
  induction xs with
  | nil => exact List.pairwise_singleton _ _
  | cons p rest ih =>
    obtain ⟨hp, hrest⟩ := List.pairwise_cons.1 h
    rw [Keyed.insert]
    split
    next hlt =>
      refine List.pairwise_cons.2 ⟨fun q hq => ?_, h⟩
      rcases List.mem_cons.1 hq with rfl | hq
      · exact hlt
      · exact hlt.trans (hp q hq)
    next hle =>
      split
      next heq => exact List.pairwise_cons.2 ⟨fun q hq => heq ▸ hp q hq, hrest⟩
      next hne =>
        refine List.pairwise_cons.2 ⟨fun q hq => ?_, ih hrest⟩
        rcases mem_insert hq with rfl | hq
        · exact lt_of_le_of_ne (not_lt.1 hle) (Ne.symm hne)
        · exact hp q hq

/-- Behind all smaller keys. -/
theorem insert_of_forall_lt (h : ∀ p ∈ xs, p.1 < key) :
    insert key value xs = xs ++ [(key, value)] := by
  induction xs with
  | nil => rfl
  | cons p rest ih =>
    obtain ⟨hp, hrest⟩ := List.forall_mem_cons.1 h
    rw [insert, if_neg hp.not_gt, if_neg hp.ne', ih hrest, List.cons_append]

/-- What stands there already. -/
theorem IsSorted.insert_of_mem (h : IsSorted xs) (hmem : (key, value) ∈ xs) :
    Keyed.insert key value xs = xs := by
  induction xs with
  | nil => nomatch hmem
  | cons p rest ih =>
    obtain ⟨hp, hrest⟩ := List.pairwise_cons.1 h
    rcases List.mem_cons.1 hmem with rfl | hmem
    · rw [Keyed.insert, if_neg (lt_irrefl _), if_pos rfl]
    · have hlt : p.1 < key := hp _ hmem
      rw [Keyed.insert, if_neg hlt.not_gt, if_neg hlt.ne', ih hrest hmem]

/-- Members with greater keys come to stand behind the others. -/
theorem IsSorted.foldl_insert_append (h : IsSorted (xs ++ ys)) :
    ys.foldl (fun sorted p => Keyed.insert p.1 p.2 sorted) xs = xs ++ ys := by
  -- each of `ys` comes to stand at the end
  induction ys generalizing xs with
  | nil => exact (List.append_nil xs).symm
  | cons p ys ih =>
    have hlt : ∀ q ∈ xs, q.1 < p.1 := fun q hq =>
      (List.pairwise_append.1 h).2.2 q hq p List.mem_cons_self
    rw [List.append_cons] at h ⊢
    rw [List.foldl_cons, insert_of_forall_lt hlt, ih h]

/-- A sorted list is built again from its members. -/
theorem IsSorted.foldl_insert_nil (h : IsSorted ys) :
    ys.foldl (fun sorted p => Keyed.insert p.1 p.2 sorted) [] = ys := by
  rw [← List.nil_append ys] at h
  exact h.foldl_insert_append

/-- Nothing changes if members are inserted once more. -/
theorem IsSorted.foldl_insert_of_subset (h : IsSorted xs) (hsub : ys ⊆ xs) :
    ys.foldl (fun sorted p => Keyed.insert p.1 p.2 sorted) xs = xs := by
  induction ys with
  | nil => rfl
  | cons p ys ih =>
    obtain ⟨hp, hys⟩ := List.cons_subset.1 hsub
    rw [List.foldl_cons, h.insert_of_mem hp, ih hys]

end MarketAlerts.Keyed
