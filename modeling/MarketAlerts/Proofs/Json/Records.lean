import MarketAlerts.Json.Decode
import MarketAlerts.Proofs.Keyed

/-!
# Members of objects and fields of records

A member is found under its key, whichever other members there are. A reader is exact if it takes
what is written of a value, and nothing else, for this value; a record is read field by field.

- `member?_append`, `member?_lastWins`: of equal keys the last one counts;
- `member?_eq_some_iff_mem`: where keys are distinct, a member is found if it is there;
- `IsExact`, `isExact_string?` and its like: the readers of texts, numbers and lists are exact;
- `record?_obj`, `Record.fieldOr?_eq_some_iff`: what is read of a record that is an object.
-/

namespace MarketAlerts.Json

/-! ## Members -/

variable {ms : List (String × Json)} {key : String}

/-- The later members come first in a search. -/
theorem member?_append (ms ps : List (String × Json)) (key : String) :
    member? (ms ++ ps) key = (member? ps key).or (member? ms key) := by
  simp only [member?, List.findRev?_eq_find?_reverse, List.reverse_append, List.find?_append,
    Option.map_or]

/-- A member is found where no later one has its key. -/
theorem member?_cons (m : String × Json) (ms : List (String × Json)) (key : String) :
    member? (m :: ms) key = (member? ms key).or (if m.1 = key then some m.2 else none) := by
  rw [← List.singleton_append, member?_append]
  refine congrArg _ ?_
  by_cases h : m.1 = key <;> simp [member?, List.findRev?, h]

/-- Members that are left out make no difference to the others. -/
theorem member?_filter {keeps : String → Bool} (h : keeps key = true) (ms : List (String × Json)) :
    member? (ms.filter fun m => keeps m.1) key = member? ms key := by
  induction ms with
  | nil => rfl
  | cons m ms ih =>
    by_cases hm : keeps m.1 = true
    · rw [List.filter_cons_of_pos (by simpa using hm), member?_cons, member?_cons, ih]
    · have hne : m.1 ≠ key := fun heq => hm (heq ▸ h)
      rw [List.filter_cons_of_neg (by simpa using hm), member?_cons, ih, if_neg hne, Option.or_none]

/-- Where keys are distinct, the last member of a key is its only one. -/
theorem member?_eq_lookup (h : (ms.map Prod.fst).Nodup) (key : String) :
    member? ms key = ms.lookup key := by
  induction ms with
  | nil => rfl
  | cons m ms ih =>
    rw [List.map_cons, List.nodup_cons] at h
    rw [member?_cons, ih h.2, List.lookup_cons]
    by_cases hm : m.1 = key
    · have hnone : ms.lookup key = none := by
        refine List.lookup_eq_none_iff.2 fun p hp => bne_iff_ne.2 fun heq => h.1 ?_
        rw [hm, heq]
        exact List.mem_map_of_mem hp
      rw [hnone, if_pos hm, hm, beq_self_eq_true, Option.none_or]
    · rw [if_neg hm, beq_eq_false_iff_ne.2 (Ne.symm hm), Option.or_none]

/-- Where keys are distinct a member is found exactly if it is there. -/
theorem member?_eq_some_iff_mem (h : (ms.map Prod.fst).Nodup) {v : Json} :
    member? ms key = some v ↔ (key, v) ∈ ms := by
  rw [member?_eq_lookup h, Keyed.lookup_eq_some_iff_mem h]

/-! ## The last of equal keys -/

/-- The last member with a key is the one that stays when they are sorted. -/
theorem lookup_foldl_insert (ms sorted : List (String × Json)) (key : String) :
    (ms.foldl (fun sorted m => Keyed.insert m.1 m.2 sorted) sorted).lookup key =
      (member? ms key).or (sorted.lookup key) := by
  induction ms generalizing sorted with
  | nil => rfl
  | cons m ms ih =>
    rw [List.foldl_cons, ih, member?_cons]
    by_cases hm : m.1 = key
    · rw [hm, Keyed.lookup_insert_self, if_pos rfl, Option.or_assoc, Option.some_or]
    · rw [Keyed.lookup_insert_of_ne (Ne.symm hm), if_neg hm, Option.or_none]

/-- Members that are inserted one by one are sorted. -/
theorem isSorted_foldl_insert (ms : List (String × Json)) {sorted : List (String × Json)}
    (h : Keyed.IsSorted sorted) :
    Keyed.IsSorted (ms.foldl (fun sorted m => Keyed.insert m.1 m.2 sorted) sorted) := by
  induction ms generalizing sorted with
  | nil => exact h
  | cons m ms ih => exact ih (h.insert m.1 m.2)

/-- An object has its keys in order. -/
theorem isSorted_lastWins (ms : List (String × Json)) : Keyed.IsSorted (lastWins ms) :=
  isSorted_foldl_insert ms List.Pairwise.nil

theorem nodup_keys_lastWins (ms : List (String × Json)) : ((lastWins ms).map Prod.fst).Nodup :=
  (isSorted_lastWins ms).nodup_keys

/-- Of equal keys the last one counts. -/
theorem member?_lastWins (ms : List (String × Json)) (key : String) :
    member? (lastWins ms) key = member? ms key := by
  rw [member?_eq_lookup (nodup_keys_lastWins ms)]
  exact (lookup_foldl_insert ms [] key).trans (by rw [List.lookup_nil, Option.or_none])

/-- No key is repeated where keys are distinct. -/
theorem hasRepeatedKey_eq_false_iff :
    hasRepeatedKey ms = false ↔ (ms.map Prod.fst).Nodup := by
  induction ms with
  | nil => simp [hasRepeatedKey]
  | cons m ms ih =>
    rw [hasRepeatedKey, Bool.or_eq_false_iff, ih, List.map_cons, List.nodup_cons]
    refine and_congr_left fun _ => ?_
    rw [List.any_eq_false, List.mem_map]
    simp only [decide_eq_true_eq, not_exists, not_and]

theorem hasRepeatedKey_filter (h : (ms.map Prod.fst).Nodup) (p : String × Json → Bool) :
    hasRepeatedKey (ms.filter p) = false :=
  hasRepeatedKey_eq_false_iff.2 (h.sublist (List.filter_sublist.map _))

/-! ## Exact readers -/

section Exact

variable {α : Type} {read : Json → Option α} {write : α → Json} {fields : List String}

/-- A reader takes what is written of a value for this value, and refuses everything else. -/
def IsExact (read : Json → Option α) (write : α → Json) : Prop :=
  ∀ v x, read v = some x ↔ v = write x

/-- What is read back tells values apart. -/
theorem IsExact.injective (h : IsExact read write) {x y : α} (hxy : write x = write y) : x = y := by
  have hx := (h _ x).2 rfl
  have hy := (h _ y).2 rfl
  rw [hxy] at hx
  exact Option.some.inj (hx.symm.trans hy)

/-- Texts are read exactly. -/
theorem isExact_string? : IsExact string? .str := by
  intro v x
  cases v <;> simp [string?]

/-- Truth values are read exactly. -/
theorem isExact_bool? : IsExact bool? .bool := by
  intro v x
  cases v <;> simp [bool?]

/-- A number below a bound is read, and nothing else. -/
theorem natBelow?_eq_some_iff {bound n : Nat} {v : Json} :
    natBelow? bound v = some n ↔ v = .nat n ∧ n < bound := by
  unfold natBelow?
  split
  next k =>
    rw [Option.ite_none_right_eq_some, Option.some.injEq, nat, num.injEq, Number.int.injEq]
    omega
  next hv =>
    refine iff_of_false nofun fun h => hv n h.1

/-- Words of 64 bits are read exactly. -/
theorem isExact_word64? : IsExact word64? fun x => .nat x.toNat := by
  intro v x
  rw [word64?, nat64?, Option.map_eq_some_iff]
  constructor
  · rintro ⟨n, hn, rfl⟩
    obtain ⟨rfl, hlt⟩ := natBelow?_eq_some_iff.1 hn
    exact congrArg Json.nat (UInt64.toNat_ofNat_of_lt' hlt).symm
  · rintro rfl
    exact ⟨x.toNat, natBelow?_eq_some_iff.2 ⟨rfl, x.toNat_lt⟩, UInt64.ofNat_toNat⟩

/-- Words of 32 bits are read exactly. -/
theorem isExact_word32? : IsExact word32? fun x => .nat x.toNat := by
  intro v x
  rw [word32?, Option.map_eq_some_iff]
  constructor
  · rintro ⟨n, hn, rfl⟩
    obtain ⟨rfl, hlt⟩ := natBelow?_eq_some_iff.1 hn
    exact congrArg Json.nat (UInt32.toNat_ofNat_of_lt' hlt).symm
  · rintro rfl
    exact ⟨x.toNat, natBelow?_eq_some_iff.2 ⟨rfl, x.toNat_lt⟩, UInt32.ofNat_toNat⟩

/-- Texts that may be missing are read exactly. -/
theorem isExact_orNull? : IsExact (orNull? string?) .strOrNull := by
  intro v x
  cases x <;> cases v <;> simp [orNull?, string?, strOrNull]

/-- Lists are read exactly if their members are. -/
theorem IsExact.list? (h : IsExact read write) :
    IsExact (list? read) fun xs => .arr (xs.map write) := by
  intro v xs
  cases v with
  | arr vs =>
    rw [Json.list?, arr.injEq]
    induction vs generalizing xs with
    | nil => cases xs <;> simp
    | cons v vs ih =>
      cases xs with
      | nil => simp [Option.bind_eq_some_iff]
      | cons x xs => simp [Option.bind_eq_some_iff, ← h v x, ← ih xs]
  | _ => simp [Json.list?]

/-- Lists of texts are read exactly. -/
theorem isExact_texts? : IsExact (list? string?) fun ss => .arr (ss.map .str) :=
  isExact_string?.list?

/-! ## Records -/

/-- An object with distinct keys is a record. Members that are no fields are left out. -/
theorem record?_obj (h : (ms.map Prod.fst).Nodup) (fields : List String) :
    (Json.obj ms).record? fields = some ⟨ms.filter fun m => fields.contains m.1, false⟩ := by
  have hrepeated : hasRepeatedKey (ms.filter fun m => fields.contains m.1) = false :=
    hasRepeatedKey_filter h _
  rw [record?]
  exact if_neg (Bool.not_eq_true _ ▸ hrepeated)

/-- A field of a record has the value that is written there, or else its default. -/
theorem Record.fieldOr?_eq_some_iff (h : IsExact read write) (hkey : fields.contains key = true)
    (positional : Bool) (default x : α) :
    (Record.mk (ms.filter fun m => fields.contains m.1) positional).fieldOr? key default read =
      some x ↔ write x = (member? ms key).getD (write default) := by
  rw [Record.fieldOr?, member?_filter hkey]
  cases member? ms key with
  | none =>
    rw [Option.some.injEq, Option.getD_none]
    exact ⟨fun hx => hx ▸ rfl, fun hx => (h.injective hx).symm⟩
  | some v =>
    rw [Option.getD_some]
    exact (h v x).trans eq_comm

end Exact

end MarketAlerts.Json
