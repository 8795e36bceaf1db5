import Mathlib.Data.List.Forall2
import MarketAlerts.Channel.Settings.Json
import MarketAlerts.Proofs.Json.Records

/-!
# Records that are changed field by field

A record is changed by writing it as members, laying a patch over these and reading the result.
What that does depends on two things only: what is written for a field is what the field can hold,
and a record is read field by field.

- `Json.patched`: members with a patch in the places of its keys;
- `FieldType.Admits`, `FieldType.IsWritten`: what a field can hold is what is written of values;
- `Fits`: members that are values for the fields in their order;
- `IsRecord`: records that are written and read so;
- `IsRecord.merge_eq_some_iff`, `IsRecord.merge_eq_none_iff`: what becomes of a record by a patch,
  and which patches cannot be read;
- `patched_patched`, `IsRecord.read?_eq_merge`: two patches are one, and to be read is to be laid
  over the standard.
-/

namespace MarketAlerts

/-- Members with those of a patch in the places of the keys that it names. -/
def Json.patched (members patch : List (String × Json)) : List (String × Json) :=
  members.map fun m => (m.1, (member? patch m.1).getD m.2)

namespace Json

variable {as bs ps qs : List (String × Json)}

theorem map_fst_patched (ms ps : List (String × Json)) :
    (patched ms ps).map Prod.fst = ms.map Prod.fst := by
  rw [patched, List.map_map]
  rfl

/-- A patch that names nothing changes nothing. -/
theorem patched_nil (ms : List (String × Json)) : patched ms [] = ms :=
  List.map_id ms

/-- Where all keys are named, it does not matter what stood there. -/
theorem patched_eq_patched (hkeys : as.map Prod.fst = bs.map Prod.fst)
    (h : ∀ m ∈ bs, member? ps m.1 = some ((member? qs m.1).getD m.2)) :
    patched as ps = patched bs qs := by
  induction as generalizing bs with
  | nil =>
    rw [List.map_nil, eq_comm, List.map_eq_nil_iff] at hkeys
    rw [hkeys]
    rfl
  | cons a as ih =>
    cases bs with
    | nil => cases hkeys
    | cons b bs =>
      rw [List.map_cons, List.map_cons, List.cons.injEq] at hkeys
      obtain ⟨hb, hbs⟩ := List.forall_mem_cons.1 h
      have hrest := ih hkeys.2 hbs
      rw [patched, patched] at hrest ⊢
      rw [List.map_cons, List.map_cons, hrest, hkeys.1, hb, Option.getD_some]

/-- What an overlay has in the places of its members. -/
theorem patched_lastWins (hkeys : as.map Prod.fst = bs.map Prod.fst)
    (hnodup : (bs.map Prod.fst).Nodup) (ps : List (String × Json)) :
    patched as (lastWins (bs ++ ps)) = patched bs ps := by
  refine patched_eq_patched hkeys fun m hm => ?_
  rw [member?_lastWins, member?_append, (member?_eq_some_iff_mem hnodup).2 hm]
  cases member? ps m.1 <;> rfl

/-- One patch after the other is the second one laid over the first. -/
theorem patched_patched (ms ps qs : List (String × Json)) :
    patched (patched ms ps) qs = patched ms (lastWins (ps ++ qs)) := by
  rw [patched, patched, patched, List.map_map]
  refine List.map_congr_left fun m _ => ?_
  rw [member?_lastWins, member?_append]
  dsimp only [Function.comp_apply]
  cases member? qs m.1 <;> rfl

end Json

namespace Channel

/-- What a field of settings can hold. -/
inductive FieldType where
  /-- A whole number from zero up to below a power of two. -/
  | word (bits : Nat)
  /-- A text. -/
  | text
  /-- A text, or `null` for none. -/
  | optionalText
  /-- A list of texts. -/
  | texts
  /-- A truth value. -/
  | truth
deriving DecidableEq

/-- Whether a value is of the type and in its range. -/
def FieldType.Admits : FieldType → Json → Prop
  | word bits, v => ∃ n : Nat, n < twoTo bits ∧ .nat n = v
  | text, v => ∃ s, .str s = v
  | optionalText, v => .null = v ∨ ∃ s, .str s = v
  | texts, v => ∃ ss : List String, .arr (ss.map .str) = v
  | truth, v => ∃ b, .bool b = v

open Json (member? patched overlay? lastWins)

namespace FieldType

/-- A field of the type holds exactly what is written of values. -/
def IsWritten {α : Type} (type : FieldType) (write : α → Json) : Prop :=
  ∀ v, type.Admits v ↔ ∃ x, write x = v

/-- Words of 64 bits are written as the numbers below two to the power 64. -/
theorem isWritten_word64 : (word 64).IsWritten fun x : UInt64 => .nat x.toNat := by
  intro v
  constructor
  · rintro ⟨n, hn, rfl⟩
    exact ⟨UInt64.ofNat n, congrArg Json.nat (UInt64.toNat_ofNat_of_lt' hn)⟩
  · rintro ⟨x, rfl⟩
    exact ⟨x.toNat, x.toNat_lt, rfl⟩

/-- Words of 32 bits are written as the numbers below two to the power 32. -/
theorem isWritten_word32 : (word 32).IsWritten fun x : UInt32 => .nat x.toNat := by
  intro v
  constructor
  · rintro ⟨n, hn, rfl⟩
    exact ⟨UInt32.ofNat n, congrArg Json.nat (UInt32.toNat_ofNat_of_lt' hn)⟩
  · rintro ⟨x, rfl⟩
    exact ⟨x.toNat, x.toNat_lt, rfl⟩

theorem isWritten_text : text.IsWritten .str := fun _ => .rfl

/-- A text that may be missing is written as a text or as `null`. -/
theorem isWritten_optionalText : optionalText.IsWritten .strOrNull := by
  intro v
  constructor
  · rintro (rfl | ⟨s, rfl⟩)
    · exact ⟨none, rfl⟩
    · exact ⟨some s, rfl⟩
  · rintro ⟨_ | s, rfl⟩
    · exact .inl rfl
    · exact .inr ⟨s, rfl⟩

/-- Lists of texts are written as arrays of texts. -/
theorem isWritten_texts : texts.IsWritten fun ss : List String => .arr (ss.map .str) :=
  fun _ => .rfl

theorem isWritten_truth : truth.IsWritten .bool := fun _ => .rfl

end FieldType

/-! ## Records -/

/-- The members are the fields in order, with values that these can hold. -/
def Fits (fields : List (String × FieldType)) (members : List (String × Json)) : Prop :=
  List.Forall₂ (fun f m => m.1 = f.1 ∧ f.2.Admits m.2) fields members

section Record

variable {σ : Type} {fields : List (String × FieldType)} {write : σ → List (String × Json)}
  {read? : Json → Option σ} {standard : σ} {ms : List (String × Json)}

theorem Fits.eq_nil (h : Fits [] ms) : [] = ms :=
  (List.forall₂_nil_left_iff.1 h).symm

/-- A value that is written fits in front, where its field is. -/
theorem Fits.cons {α : Type} {type : FieldType} {w : α → Json} (hw : type.IsWritten w)
    (name : String) (x : α) (h : Fits fields ms) :
    Fits ((name, type) :: fields) ((name, w x) :: ms) :=
  List.Forall₂.cons ⟨rfl, (hw _).2 ⟨x, rfl⟩⟩ h

/-- What stands at the first field was written of a value. -/
theorem Fits.exists_cons {α : Type} {type : FieldType} {w : α → Json} (hw : type.IsWritten w)
    {name : String} (h : Fits ((name, type) :: fields) ms) :
    ∃ x rest, (name, w x) :: rest = ms ∧ Fits fields rest := by
  obtain ⟨⟨_, v⟩, rest, ⟨rfl, hv⟩, hrest, rfl⟩ := List.forall₂_cons_left_iff.1 h
  obtain ⟨x, rfl⟩ := (hw v).1 hv
  exact ⟨x, rest, rfl, hrest⟩

/-- Members that fit have the names of the fields as their keys. -/
theorem Fits.map_fst (h : Fits fields ms) : ms.map Prod.fst = fields.map Prod.fst := by
  induction h with
  | nil => rfl
  | cons hfirst _ ih => rw [List.map_cons, List.map_cons, hfirst.1, ih]

/-- Patched members fit if the patch has values for the fields that these can hold. -/
theorem Fits.patched_iff (h : Fits fields ms) (ps : List (String × Json)) :
    Fits fields (patched ms ps) ↔
      ∀ f ∈ fields, ∀ v, member? ps f.1 = some v → f.2.Admits v := by
  rw [Fits, patched, List.forall₂_map_right_iff]
  induction h with
  | nil => simp
  | @cons f m _ _ hfirst _ ih =>
    rw [List.forall₂_cons, List.forall_mem_cons, ih, and_iff_right hfirst.1, hfirst.1]
    refine and_congr_left fun _ => ?_
    cases member? ps f.1 with
    -- a field that the patch does not name keeps a value that it can hold
    | none => simpa using hfirst.2
    | some v => simp

/-- A patch counts only in the keys of the fields. -/
theorem Fits.patched_congr (h : Fits fields ms) {ps qs : List (String × Json)}
    (hagree : ∀ f ∈ fields, member? ps f.1 = member? qs f.1) : patched ms ps = patched ms qs := by
  refine List.map_congr_left fun m hm => ?_
  have hkey : m.1 ∈ fields.map Prod.fst := h.map_fst ▸ List.mem_map_of_mem hm
  obtain ⟨f, hf, hfst⟩ := List.mem_map.1 hkey
  rw [← hfst, hagree f hf]

/-- Settings that are written and read field by field. -/
structure IsRecord (fields : List (String × FieldType)) (write : σ → List (String × Json))
    (read? : Json → Option σ) (standard : σ) : Prop where
  /-- Each field has a name of its own. -/
  nodup : (fields.map Prod.fst).Nodup
  /-- What is written fits. -/
  fits_write : ∀ s, Fits fields (write s)
  /-- What fits is written of some settings. -/
  exists_write : ∀ {ms}, Fits fields ms → ∃ s, write s = ms
  /-- What is read are the fields as they stand there, and the standard for those that do not. -/
  read?_iff : ∀ {ms : List (String × Json)}, (ms.map Prod.fst).Nodup → ∀ s,
    read? (.obj ms) = some s ↔ write s = patched (write standard) ms

namespace IsRecord

variable (h : IsRecord fields write read? standard)

include h

theorem map_fst_write (s s' : σ) : (write s).map Prod.fst = (write s').map Prod.fst :=
  (h.fits_write s).map_fst.trans (h.fits_write s').map_fst.symm

theorem nodup_write (s : σ) : ((write s).map Prod.fst).Nodup := by
  rw [(h.fits_write s).map_fst]
  exact h.nodup

/-- A merge gives the settings with the values of the patch in the fields that it names. -/
theorem merge_eq_some_iff (s s' : σ) (ps : List (String × Json)) :
    (overlay? (write s) (.obj ps)).bind read? = some s' ↔ write s' = patched (write s) ps := by
  rw [overlay?, Option.bind_some, h.read?_iff (Json.nodup_keys_lastWins _),
    Json.patched_lastWins (h.map_fst_write standard s) (h.nodup_write s)]

/-- There are such settings if the fields can hold these values. -/
theorem exists_merge_iff (s : σ) (ps : List (String × Json)) :
    (∃ s', (overlay? (write s) (.obj ps)).bind read? = some s') ↔
      ∀ f ∈ fields, ∀ v, member? ps f.1 = some v → f.2.Admits v := by
  simp only [h.merge_eq_some_iff]
  rw [← (h.fits_write s).patched_iff]
  exact ⟨fun ⟨s', hs'⟩ => hs' ▸ h.fits_write s', h.exists_write⟩

/-- A merge fails if the patch is no object, or has a value for a field that cannot hold it. -/
theorem merge_eq_none_iff (s : σ) (patch : Json) :
    (overlay? (write s) patch).bind read? = none ↔
      (∀ ps, patch ≠ .obj ps) ∨
        ∃ ps, patch = .obj ps ∧ ∃ f ∈ fields, ∃ v, member? ps f.1 = some v ∧ ¬f.2.Admits v := by
  cases patch with
  | obj ps =>
    have hexists := not_congr (h.exists_merge_iff s ps)
    rw [← Option.isSome_iff_exists, Option.not_isSome_iff_eq_none] at hexists
    rw [hexists]
    simp
  | _ => exact iff_of_true rfl (.inl nofun)

/-- To be read is to be merged into the standard. -/
theorem read?_eq_merge (hms : (ms.map Prod.fst).Nodup) :
    read? (.obj ms) = (overlay? (write standard) (.obj ms)).bind read? := by
  ext s
  rw [h.read?_iff hms, h.merge_eq_some_iff]

end IsRecord

end Record

end Channel

end MarketAlerts
