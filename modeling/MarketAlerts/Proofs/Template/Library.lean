import Mathlib.Data.List.Induction
import Mathlib.Data.List.Nodup
import MarketAlerts.Proofs.Keyed
import MarketAlerts.Template.Library

/-!
# Histories of a library

A history is a list of requests, each a task with any arguments, the first one done with the library
that holds no custom templates.

## Main definitions

- `IsProper`: a template belongs under a name;
- `IsWellFormed`: custom templates are sorted by name, and each belongs where it stands;
- `Succeeds`: what a request does that does not fail;
- `after`: the library after a history.

## Main results

- `perform_create` and its like: what comes of each task, and the library after it;
- `customOf?_store_self`: what is stored is found;
- `perform_request_cases`: a request fails and changes nothing, or it succeeds;
- `isWellFormed_after`: the library is well formed after every history;
- `perform_mapM_create`: an import that succeeds creates its records one by one;
- `after_consistent`: what can be seen of a library after any history.
-/

namespace MarketAlerts.Template

/-- A custom template may have this name and this text. -/
def IsWritable (name text : String) : Prop :=
  isPrebuilt name = false ∧ ∃ segments, Segment.parse text = .ok segments

/-- A template belongs under a name. -/
structure IsProper (name : String) (t : Template) : Prop where
  /-- It is its own name. -/
  name_eq : t.name = name
  /-- It is a custom one. -/
  origin_eq : t.origin = .custom
  /-- Such a template may be stored. -/
  writable : IsWritable t.name t.text

namespace Library

/-! ## Tasks -/

section Perform

variable {α β : Type} (lib : Library)

/-- A task that is done gives its result. -/
@[simp]
theorem perform_pure (a : α) : lib.perform (pure a) = (.ok a, lib) := rfl

/-- A task that fails changes nothing. -/
@[simp]
theorem perform_throw (e : Error) : lib.perform (throw e : Task α) = (.error e, lib) := rfl

/-- A check changes nothing. -/
@[simp]
theorem perform_liftM (x : Except Error α) : lib.perform (liftM x : Task α) = (x, lib) := rfl

/-- To look at the library changes nothing. -/
@[simp]
theorem perform_get : lib.perform get = (.ok lib, lib) := rfl

/-- A change does not fail. -/
@[simp]
theorem perform_modify (f : Library → Library) :
    lib.perform (modify f) = (.ok ⟨⟩, f lib) := rfl

/-- The second part of a task starts with the library that the first part leaves, unless that
fails. -/
theorem perform_bind (task : Task α) (f : α → Task β) :
    lib.perform (task >>= f) =
      match lib.perform task with
      | (.ok a, lib') => lib'.perform (f a)
      | (.error e, lib') => (.error e, lib') := by
  have hrun : lib.perform (task >>= f) = Id.run ((ExceptT.bindCont f (lib.perform task).1).run
      (lib.perform task).2) := rfl
  rw [hrun]
  rcases lib.perform task with ⟨e | a, lib'⟩ <;> rfl

/-- A result can be changed after the task. -/
theorem perform_map (task : Task α) (f : α → β) :
    lib.perform (f <$> task) = ((lib.perform task).1.map f, (lib.perform task).2) := by
  rw [map_eq_pure_bind, perform_bind]
  rcases lib.perform task with ⟨e | a, lib'⟩ <;> rfl

/-- Changes are made one after the other. -/
theorem perform_forM_modify (f : α → Library → Library) (xs : List α) :
    lib.perform (xs.forM fun x => modify (f x)) =
      (.ok ⟨⟩, xs.foldl (fun lib x => f x lib) lib) := by
  induction xs generalizing lib with
  | nil => rfl
  | cons x xs ih =>
    have hcons : ((x :: xs).forM fun x => (modify (f x) : Task PUnit)) =
        (do modify (f x); xs.forM fun x => modify (f x)) := rfl
    rw [hcons, perform_bind, perform_modify]
    exact ih (f x lib)

end Perform

/-! ## What each task does -/

section Tasks

variable {lib : Library} {name text : String} {t : Template} {replace : Bool}
  {records : List Template}

/-- What may be written is a name and a text that are in order. -/
theorem checkWritable_eq_ok_iff : checkWritable name text = .ok () ↔ IsWritable name text := by
  rw [checkWritable, IsWritable]
  cases isPrebuilt name <;> cases Segment.parse text <;> simp

/-- A template is created unless it may not be written or is there and not to be replaced. -/
theorem perform_create (lib : Library) (t : Template) (replace : Bool) :
    lib.perform (Task.create t replace) =
      match checkWritable t.name t.text with
      | .error e => (.error e, lib)
      | .ok _ =>
        if (lib.customOf? t.name).isSome ∧ replace = false then
          (.error (.alreadyExists t.name), lib)
        else (.ok (lib.customOf? t.name).isNone, lib.store t) := by
  rw [Task.create, perform_bind, perform_liftM]
  cases checkWritable t.name t.text with
  | error e => rfl
  | ok _ =>
    cases hname : lib.customOf? t.name <;> cases replace <;>
      simp [perform_bind, perform_map, hname, Except.map]

/-- A template is updated if it may be written and is there. -/
theorem perform_update (lib : Library) (name text : String) (description : Option String) :
    lib.perform (Task.update name text description) =
      match checkWritable name text with
      | .error e => (.error e, lib)
      | .ok _ =>
        match lib.customOf? name with
        | none => (.error (.notFound name), lib)
        | some t =>
          (.ok ⟨⟩,
            lib.put name { t with text, description := description.getD t.description }) := by
  rw [Task.update, perform_bind, perform_liftM]
  cases checkWritable name text with
  | error e => rfl
  | ok _ => cases hname : lib.customOf? name <;> simp [perform_bind, hname]

/-- A template is deleted if it is there and did not come with the program. -/
theorem perform_delete (lib : Library) (name : String) :
    lib.perform (Task.delete name) =
      if isPrebuilt name then (.error (.readOnly name), lib)
      else
        match lib.customOf? name with
        | none => (.error (.notFound name), lib)
        | some t => (.ok t, lib.remove name) := by
  rw [Task.delete]
  cases isPrebuilt name <;> cases hname : lib.customOf? name <;>
    simp [perform_bind, perform_map, hname, Except.map]

/-- Records are imported all together or not at all. -/
theorem perform_importRecords (lib : Library) (records : List Template) (replace : Bool) :
    lib.perform (Task.importRecords records replace) =
      match lib.checkRecords replace [] records with
      | .error e => (.error e, lib)
      | .ok _ => (.ok records.length, records.foldl store lib) := by
  rw [Task.importRecords, perform_bind, perform_get]
  dsimp only
  rw [perform_bind, perform_liftM]
  cases lib.checkRecords replace [] records with
  | error e => rfl
  | ok _ =>
    dsimp only
    rw [perform_bind, perform_forM_modify (f := fun t lib => lib.store t)]
    rfl

/-- The first record passes if it may be stored, its name is not among those seen, and it replaces
a template only where it may. Then its name counts as seen. -/
theorem checkRecords_cons_eq_ok_iff {seen : List String} :
    lib.checkRecords replace seen (t :: records) = .ok () ↔
      (IsWritable t.name t.text ∧ t.name ∉ seen ∧
        (replace = true ∨ lib.customOf? t.name = none)) ∧
      lib.checkRecords replace (t.name :: seen) records = .ok () := by
  rw [checkRecords]
  cases hcheck : checkWritable t.name t.text with
  | error e =>
    have hnot : ¬IsWritable t.name t.text := by simp [← checkWritable_eq_ok_iff, hcheck]
    exact iff_of_false nofun fun h => hnot h.1.1
  | ok _ =>
    have hwritable : IsWritable t.name t.text := checkWritable_eq_ok_iff.1 hcheck
    change (if _ then _ else _) = _ ↔ _
    split
    next hrefused =>
      refine iff_of_false nofun fun h => ?_
      obtain ⟨⟨-, hseen, hreplace⟩, -⟩ := h
      rcases hreplace with hreplace | hreplace <;> simp [hseen, hreplace] at hrefused
    next haccepted =>
      have hseen : t.name ∉ seen ∧ (replace = true ∨ lib.customOf? t.name = none) := by
        simpa [or_iff_not_imp_left] using haccepted
      exact (and_iff_right ⟨hwritable, hseen⟩).symm

/-- Records pass if each may be stored and replaces a template only where it may, and none has the
name of another. -/
theorem checkRecords_eq_ok_iff {seen : List String} :
    lib.checkRecords replace seen records = .ok () ↔
      (∀ t ∈ records, IsWritable t.name t.text ∧ t.name ∉ seen ∧
        (replace = true ∨ lib.customOf? t.name = none)) ∧
      (records.map Template.name).Nodup := by
  induction records generalizing seen with
  | nil => simp [checkRecords]
  | cons t rest ih =>
    rw [checkRecords_cons_eq_ok_iff, ih, List.forall_mem_cons, List.map_cons, List.nodup_cons]
    -- what is not among the names seen and the first one is new to both
    simp only [List.mem_cons, not_or, List.mem_map, not_exists, not_and]
    constructor
    · rintro ⟨ht, hrest, hnodup⟩
      exact ⟨⟨ht, fun u hu => ⟨(hrest u hu).1, (hrest u hu).2.1.2, (hrest u hu).2.2⟩⟩,
        fun u hu => (hrest u hu).2.1.1, hnodup⟩
    · rintro ⟨⟨ht, hrest⟩, hne, hnodup⟩
      exact ⟨ht, fun u hu => ⟨(hrest u hu).1, ⟨hne u hu, (hrest u hu).2.1⟩, (hrest u hu).2.2⟩,
        hnodup⟩

end Tasks

/-! ## Custom templates -/

section Custom

variable {lib : Library} {name : String} {t : Template} {records : List Template}

/-- What is stored is found under its name, as a custom template. -/
theorem customOf?_store_self (lib : Library) (t : Template) :
    (lib.store t).customOf? t.name = some { t with origin := .custom } :=
  Keyed.lookup_insert_self t.name _ lib.entries

/-- What is stored under other names stays. -/
theorem customOf?_store_of_ne (h : name ≠ t.name) :
    (lib.store t).customOf? name = lib.customOf? name :=
  Keyed.lookup_insert_of_ne h _ lib.entries

theorem customOf?_foldl_store_of_notMem (h : name ∉ records.map Template.name) :
    (records.foldl store lib).customOf? name = lib.customOf? name := by
  induction records generalizing lib with
  | nil => rfl
  | cons t rest ih =>
    rw [List.map_cons, List.mem_cons, not_or] at h
    rw [List.foldl_cons, ih h.2, customOf?_store_of_ne h.1]

/-- Custom templates are sorted by name, and each belongs where it stands. -/
structure IsWellFormed (lib : Library) : Prop where
  /-- The names rise. -/
  isSorted : Keyed.IsSorted lib.entries
  /-- Each template belongs under its name. -/
  isProper : ∀ p ∈ lib.entries, IsProper p.1 p.2

/-- A library without custom templates is well formed. -/
theorem isWellFormed_empty : IsWellFormed {} where
  isSorted := List.Pairwise.nil
  isProper := nofun

namespace IsWellFormed

/-- A template that belongs under its name leaves the library well formed. -/
theorem put (h : lib.IsWellFormed) (ht : IsProper name t) : (lib.put name t).IsWellFormed where
  isSorted := h.isSorted.insert name t
  isProper p hp := by
    rcases Keyed.mem_insert hp with rfl | hp
    · exact ht
    · exact h.isProper p hp

/-- To store a template that may be written leaves the library well formed. -/
theorem store (h : lib.IsWellFormed) (ht : IsWritable t.name t.text) :
    (lib.store t).IsWellFormed :=
  h.put ⟨rfl, rfl, ht⟩

/-- To store several such templates leaves the library well formed. -/
theorem foldl_store (h : lib.IsWellFormed) (hrecords : ∀ t ∈ records, IsWritable t.name t.text) :
    (records.foldl Library.store lib).IsWellFormed := by
  induction records generalizing lib with
  | nil => exact h
  | cons t rest ih =>
    obtain ⟨ht, hrest⟩ := List.forall_mem_cons.1 hrecords
    exact ih (h.store ht) hrest

/-- To remove a template leaves the library well formed. -/
theorem remove (h : lib.IsWellFormed) (name : String) : (lib.remove name).IsWellFormed where
  isSorted := h.isSorted.filter _
  isProper p hp := h.isProper p (List.mem_filter.1 hp).1

variable (h : lib.IsWellFormed)
include h

/-- What is found under a name belongs there. -/
theorem isProper_of_customOf? (ht : lib.customOf? name = some t) : IsProper name t :=
  h.isProper (name, t) ((Keyed.lookup_eq_some_iff_mem h.isSorted.nodup_keys).1 ht)

/-- A template is found under its name and under no other. -/
theorem customOf?_eq_some_iff : lib.customOf? name = some t ↔ t ∈ lib.custom ∧ t.name = name := by
  rw [customOf?, Keyed.lookup_eq_some_iff_mem h.isSorted.nodup_keys, custom, List.mem_map]
  constructor
  · intro hmem
    exact ⟨⟨(name, t), hmem, rfl⟩, (h.isProper _ hmem).name_eq⟩
  · rintro ⟨⟨⟨key, _⟩, hmem, rfl⟩, rfl⟩
    rwa [(h.isProper _ hmem).name_eq]

/-- Every custom template belongs under its name. -/
theorem isProper_of_mem_custom (ht : t ∈ lib.custom) : IsProper t.name t :=
  h.isProper_of_customOf? (h.customOf?_eq_some_iff.2 ⟨ht, rfl⟩)

theorem map_name_custom : lib.custom.map Template.name = lib.entries.map Prod.fst := by
  rw [custom, List.map_map]
  exact List.map_congr_left fun p hp => (h.isProper p hp).name_eq

end IsWellFormed

end Custom

/-! ## All templates -/

section All

variable {lib : Library} {name : String} {t : Template}

theorem nodup_names_prebuilt : (prebuilt.map Template.name).Nodup := by decide

/-- Names are prebuilt where there is a prebuilt template. -/
theorem isPrebuilt_iff : isPrebuilt name = true ↔ name ∈ prebuilt.map Template.name := by
  simp [isPrebuilt, List.mem_map]

/-- A prebuilt template is found under its name. -/
theorem find?_prebuilt_eq_some_iff :
    (prebuilt.find? fun t => t.name = name) = some t ↔ t ∈ prebuilt ∧ t.name = name := by
  constructor
  · intro h
    exact ⟨List.mem_of_find?_eq_some h, by simpa using List.find?_some h⟩
  · rintro ⟨hmem, hname⟩
    have hsome : (prebuilt.find? fun u => u.name = name).isSome := by
      rw [List.find?_isSome]
      exact ⟨t, hmem, by simpa using hname⟩
    obtain ⟨u, hu⟩ := Option.isSome_iff_exists.1 hsome
    have huname : u.name = name := by simpa using List.find?_some hu
    rw [hu, List.inj_on_of_nodup_map nodup_names_prebuilt (List.mem_of_find?_eq_some hu) hmem
      (huname.trans hname.symm)]

/-- No prebuilt template is found under another name. -/
theorem find?_prebuilt_eq_none (h : isPrebuilt name = false) :
    (prebuilt.find? fun t => t.name = name) = none := by
  rw [isPrebuilt, List.any_eq_false] at h
  exact List.find?_eq_none.2 h

/-- Under other names only custom templates are found. -/
theorem get?_eq_customOf? (lib : Library) (h : isPrebuilt name = false) :
    lib.get? name = lib.customOf? name := by
  rw [get?, find?_prebuilt_eq_none h, Option.none_or]

/-- A prebuilt template is always found. -/
theorem get?_of_mem_prebuilt (lib : Library) (h : t ∈ prebuilt) : lib.get? t.name = some t := by
  rw [get?, find?_prebuilt_eq_some_iff.2 ⟨h, rfl⟩, Option.some_or]

/-- A name is there if something is found under it. -/
theorem contains_eq (lib : Library) (name : String) :
    lib.contains name = (lib.get? name).isSome := by
  rw [contains, get?, Option.isSome_or, List.isSome_find?, isPrebuilt]

namespace IsWellFormed

variable (h : lib.IsWellFormed)
include h

/-- What is found is what is listed under the name. -/
theorem get?_eq_some_iff : lib.get? name = some t ↔ t ∈ lib.toList ∧ t.name = name := by
  rw [get?, Option.or_eq_some_iff, find?_prebuilt_eq_some_iff, h.customOf?_eq_some_iff, toList,
    List.mem_append, or_and_right]
  refine or_congr_right (and_iff_right_of_imp ?_)
  -- a custom template has no prebuilt name
  rintro ⟨ht, rfl⟩
  exact find?_prebuilt_eq_none (h.isProper_of_mem_custom ht).writable.1

theorem nodup_names_toList : (lib.toList.map Template.name).Nodup := by
  rw [toList, List.map_append, h.map_name_custom]
  refine nodup_names_prebuilt.append h.isSorted.nodup_keys ?_
  rw [← h.map_name_custom]
  intro name hprebuilt hcustom
  obtain ⟨t, ht, rfl⟩ := List.mem_map.1 hcustom
  have hnot := (h.isProper_of_mem_custom ht).writable.1
  rw [isPrebuilt_iff.2 hprebuilt] at hnot
  contradiction

/-- The origin of a template tells the prebuilt ones from the custom ones. -/
theorem filter_origin_toList :
    lib.toList.filter (fun t => t.origin = .prebuilt) = prebuilt ∧
    lib.toList.filter (fun t => t.origin = .custom) = lib.custom := by
  have hcustom : ∀ t ∈ lib.custom, t.origin = .custom := fun t ht =>
    (h.isProper_of_mem_custom ht).origin_eq
  rw [toList, List.filter_append, List.filter_append]
  constructor
  · have hleft : prebuilt.filter (fun t => t.origin = .prebuilt) = prebuilt := rfl
    have hright : lib.custom.filter (fun t => t.origin = .prebuilt) = [] :=
      List.filter_eq_nil_iff.2 fun t ht => by simp [hcustom t ht]
    rw [hleft, hright, List.append_nil]
  · have hleft : prebuilt.filter (fun t => t.origin = .custom) = [] := rfl
    have hright : lib.custom.filter (fun t => t.origin = .custom) = lib.custom :=
      List.filter_eq_self.2 fun t ht => by simp [hcustom t ht]
    rw [hleft, hright, List.nil_append]

end IsWellFormed

end All

/-! ## Requests -/

/-- A request to a library. -/
inductive Request where
  /-- Store a custom template. -/
  | create (t : Template) (replace : Bool)
  /-- Change a custom template. -/
  | update (name text : String) (description : Option String)
  /-- Remove a custom template. -/
  | delete (name : String)
  /-- Store records. -/
  | importRecords (records : List Template) (replace : Bool)
  /-- Store the records of a JSON text. -/
  | importText (text : String) (replace : Bool)

/-- The task of a request, without what it gives back. -/
def Request.task : Request → Task Unit
  | create t replace => discard (Task.create t replace)
  | update name text description => Task.update name text description
  | delete name => discard (Task.delete name)
  | importRecords records replace => discard (Task.importRecords records replace)
  | importText text replace => discard (Task.importText text replace)

/-- The library after some requests, the first of them to the library without custom templates. A
request that fails leaves what its task leaves. -/
def after (requests : List Request) : Library :=
  requests.foldl (fun lib q => (lib.perform q.task).2) {}

/-- A request does not fail, and the library that it leaves. -/
inductive Succeeds (lib : Library) : Request → Library → Prop where
  | create {t : Template} {replace : Bool} : IsWritable t.name t.text →
      Succeeds lib (.create t replace) (lib.store t)
  | update {name text : String} {description : Option String} {t : Template} :
      IsWritable name text → lib.customOf? name = some t →
      Succeeds lib (.update name text description)
        (lib.put name { t with text, description := description.getD t.description })
  | delete {name : String} {t : Template} : lib.customOf? name = some t →
      Succeeds lib (.delete name) (lib.remove name)
  | importRecords {records : List Template} {replace : Bool} :
      lib.checkRecords replace [] records = .ok () →
      Succeeds lib (.importRecords records replace) (records.foldl store lib)
  | importText {text : String} {records : List Template} {replace : Bool} :
      records? text = some records → lib.checkRecords replace [] records = .ok () →
      Succeeds lib (.importText text replace) (records.foldl store lib)

section Requests

variable {lib lib' : Library}

/-- A text is imported as its records, if it has any. -/
theorem perform_importText (lib : Library) (text : String) (replace : Bool) :
    lib.perform (Task.importText text replace) =
      match records? text with
      | none => (.error .serialization, lib)
      | some records => lib.perform (Task.importRecords records replace) := by
  rw [Task.importText]
  cases records? text <;> rfl

/-- A result can be left aside. -/
theorem perform_discard {α : Type} (lib : Library) (task : Task α) :
    lib.perform (discard task) =
      ((lib.perform task).1.map fun _ => ⟨⟩, (lib.perform task).2) :=
  perform_map lib task _

/-- A request fails and changes nothing, or it succeeds. -/
theorem perform_request_cases (lib : Library) (q : Request) :
    (∃ e, lib.perform q.task = (.error e, lib)) ∨
    ∃ lib', lib.perform q.task = (.ok (), lib') ∧ lib.Succeeds q lib' := by
  cases q with
  | create t replace =>
    rw [Request.task, perform_discard, perform_create]
    cases hcheck : checkWritable t.name t.text with
    | error e => exact .inl ⟨e, rfl⟩
    | ok _ =>
      dsimp only
      split
      next => exact .inl ⟨_, rfl⟩
      next => exact .inr ⟨_, rfl, .create (checkWritable_eq_ok_iff.1 hcheck)⟩
  | update name text description =>
    rw [Request.task, perform_update]
    cases hcheck : checkWritable name text with
    | error e => exact .inl ⟨e, rfl⟩
    | ok _ =>
      cases hname : lib.customOf? name with
      | none => exact .inl ⟨_, rfl⟩
      | some t => exact .inr ⟨_, rfl, .update (checkWritable_eq_ok_iff.1 hcheck) hname⟩
  | delete name =>
    rw [Request.task, perform_discard, perform_delete]
    cases isPrebuilt name with
    | true => exact .inl ⟨_, rfl⟩
    | false =>
      cases hname : lib.customOf? name with
      | none => exact .inl ⟨_, rfl⟩
      | some t => exact .inr ⟨_, rfl, .delete hname⟩
  -- all records are checked before the first is written
  | importRecords records replace =>
    rw [Request.task, perform_discard, perform_importRecords]
    cases hcheck : lib.checkRecords replace [] records with
    | error e => exact .inl ⟨e, rfl⟩
    | ok _ => exact .inr ⟨_, rfl, .importRecords hcheck⟩
  | importText text replace =>
    rw [Request.task, perform_discard, perform_importText]
    cases hrecords : records? text with
    | none => exact .inl ⟨_, rfl⟩
    | some records =>
      dsimp only
      rw [perform_importRecords]
      cases hcheck : lib.checkRecords replace [] records with
      | error e => exact .inl ⟨e, rfl⟩
      | ok _ => exact .inr ⟨_, rfl, .importText hrecords hcheck⟩

/-- Every request that succeeds keeps a library well formed. -/
theorem Succeeds.isWellFormed {q : Request} (h : lib.Succeeds q lib') (hlib : lib.IsWellFormed) :
    lib'.IsWellFormed := by
  cases h with
  | create ht => exact hlib.store ht
  | update hwritable hname =>
    have ht := hlib.isProper_of_customOf? hname
    exact hlib.put ⟨ht.name_eq, ht.origin_eq, by rw [ht.name_eq]; exact hwritable⟩
  | delete => exact hlib.remove _
  | importRecords hcheck =>
    exact hlib.foldl_store fun t ht => ((checkRecords_eq_ok_iff.1 hcheck).1 t ht).1
  | importText _ hcheck =>
    exact hlib.foldl_store fun t ht => ((checkRecords_eq_ok_iff.1 hcheck).1 t ht).1

/-- A library is well formed after every history. -/
theorem isWellFormed_after (requests : List Request) : (after requests).IsWellFormed := by
  induction requests using List.reverseRecOn with
  | nil => exact isWellFormed_empty
  | append_singleton requests q ih =>
    rw [after, List.foldl_append]
    change ((after requests).perform q.task).2.IsWellFormed
    rcases perform_request_cases (after requests) q with ⟨e, heq⟩ | ⟨lib', heq, hsucceeds⟩
    · rwa [heq]
    · rw [heq]
      exact hsucceeds.isWellFormed ih

/-- Records that pass the checks of an import are stored by it as they are one by one. -/
theorem perform_mapM_create {records : List Template} {replace : Bool}
    (h : lib.checkRecords replace [] records = .ok ()) :
    lib.perform (records.mapM fun t => Task.create t replace) =
      (.ok (records.map fun t => (lib.customOf? t.name).isNone), records.foldl store lib) := by
  induction records generalizing lib with
  | nil => rfl
  | cons t rest ih =>
    obtain ⟨hrecords, hnodup⟩ := checkRecords_eq_ok_iff.1 h
    obtain ⟨⟨hwritable, -, hreplace⟩, hrest⟩ := List.forall_mem_cons.1 hrecords
    rw [List.map_cons, List.nodup_cons] at hnodup
    have hcreate : lib.perform (Task.create t replace) =
        (.ok (lib.customOf? t.name).isNone, lib.store t) := by
      rw [perform_create, checkWritable_eq_ok_iff.2 hwritable]
      dsimp only
      rw [if_neg]
      rintro ⟨hsome, hfalse⟩
      rcases hreplace with hreplace | hnone
      · exact absurd hreplace (by simp [hfalse])
      · simp [hnone] at hsome
    -- the rest has other names, so it finds what it would have found before
    have hother : ∀ u ∈ rest, (lib.store t).customOf? u.name = lib.customOf? u.name :=
      fun u hu => customOf?_store_of_ne fun heq =>
        hnodup.1 (heq ▸ List.mem_map.2 ⟨u, hu, rfl⟩)
    have hcheck : (lib.store t).checkRecords replace [] rest = .ok () :=
      checkRecords_eq_ok_iff.2 ⟨fun u hu => by rw [hother u hu]; exact hrest u hu, hnodup.2⟩
    have hnews : (rest.map fun u => ((lib.store t).customOf? u.name).isNone) =
        rest.map fun u => (lib.customOf? u.name).isNone :=
      List.map_congr_left fun u hu => by rw [hother u hu]
    rw [List.mapM_cons, perform_bind, hcreate]
    dsimp only
    rw [perform_bind, ih hcheck, hnews]
    rfl

end Requests

/-! ## What can be seen of a library -/

/-- A template that is created is found under its name, and every other one as before. -/
theorem perform_create_eq_ok {lib lib' : Library} {t : Template} {replace isNew : Bool}
    (h : lib.perform (Task.create t replace) = (.ok isNew, lib')) :
    lib'.get? t.name = some { t with origin := .custom } ∧
    ∀ name ≠ t.name, lib'.get? name = lib.get? name := by
  rw [perform_create] at h
  cases hcheck : checkWritable t.name t.text with
  | error e => simp [hcheck] at h
  | ok _ =>
    have hwritable : IsWritable t.name t.text := checkWritable_eq_ok_iff.1 hcheck
    rw [hcheck] at h
    dsimp only at h
    split at h
    next => simp at h
    next =>
      obtain rfl : lib.store t = lib' := congrArg Prod.snd h
      refine ⟨?_, fun name hname => ?_⟩
      · rw [get?_eq_customOf? _ hwritable.1, customOf?_store_self]
      · rw [get?, get?, customOf?_store_of_ne hname]

/-- An import that succeeds stores all of its records, as if they were created one by one, and
touches no template of another name. -/
theorem perform_importRecords_eq_ok {lib lib' : Library} {records : List Template} {replace : Bool}
    {n : Nat} (h : lib.perform (Task.importRecords records replace) = (.ok n, lib')) :
    n = records.length ∧
    (∃ news, lib.perform (records.mapM fun t => Task.create t replace) = (.ok news, lib')) ∧
    ∀ name ∉ records.map Template.name, lib'.get? name = lib.get? name := by
  rw [perform_importRecords] at h
  cases hcheck : lib.checkRecords replace [] records with
  | error e => simp [hcheck] at h
  | ok _ =>
    rw [hcheck] at h
    obtain ⟨rfl, rfl⟩ : records.length = n ∧ records.foldl store lib = lib' := by simpa using h
    refine ⟨rfl, ⟨_, perform_mapM_create hcheck⟩, fun name hname => ?_⟩
    rw [get?, get?, customOf?_foldl_store_of_notMem hname]

/-- After any requests the prebuilt templates are those that they always are. Every custom template
has another name than these, stands under its own name, says that it is custom and has a text that
parses. What is found under a name is what is listed with it, and no name is listed twice. A request
that fails changes nothing. A template that is created is found under its name, and every other one
as before. An import that succeeds gives the number of its records, leaves what creating them one by
one would leave, and touches no other template; one of a text imports the records of that text. -/
theorem after_consistent (requests : List Request) :
    let lib := after requests
    (∀ t ∈ prebuilt, lib.get? t.name = some t) ∧
    lib.toList.filter (fun t => t.origin = .prebuilt) = prebuilt ∧
    lib.toList.filter (fun t => t.origin = .custom) = lib.custom ∧
    (∀ t ∈ lib.custom, isPrebuilt t.name = false ∧ lib.customOf? t.name = some t ∧
      t.origin = .custom ∧ ∃ segments, Segment.parse t.text = .ok segments) ∧
    (∀ name t, lib.customOf? name = some t → t ∈ lib.custom ∧ t.name = name) ∧
    (∀ name, lib.contains name = (lib.get? name).isSome) ∧
    (∀ name t, lib.get? name = some t ↔ t ∈ lib.toList ∧ t.name = name) ∧
    (lib.toList.map Template.name).Nodup ∧
    (∀ q e, (lib.perform (Request.task q)).1 = .error e →
      (lib.perform (Request.task q)).2 = lib) ∧
    (∀ t replace isNew lib', lib.perform (Task.create t replace) = (.ok isNew, lib') →
      lib'.get? t.name = some { t with origin := .custom } ∧
      ∀ name ≠ t.name, lib'.get? name = lib.get? name) ∧
    (∀ records replace n lib', lib.perform (Task.importRecords records replace) = (.ok n, lib') →
      n = records.length ∧
      (∃ news, lib.perform (records.mapM fun t => Task.create t replace) = (.ok news, lib')) ∧
      ∀ name ∉ records.map Template.name, lib'.get? name = lib.get? name) ∧
    (∀ text replace n lib', lib.perform (Task.importText text replace) = (.ok n, lib') →
      ∃ records, records? text = some records ∧
        lib.perform (Task.importRecords records replace) = (.ok n, lib')) := by
  intro lib
  have h : lib.IsWellFormed := isWellFormed_after requests
  refine ⟨fun t ht => get?_of_mem_prebuilt lib ht, h.filter_origin_toList.1,
    h.filter_origin_toList.2, fun t ht => ?_, fun name t => h.customOf?_eq_some_iff.1,
    contains_eq lib, fun name t => h.get?_eq_some_iff, h.nodup_names_toList, fun q e hq => ?_,
    fun t replace isNew lib' => perform_create_eq_ok,
    fun records replace n lib' => perform_importRecords_eq_ok,
    fun text replace n lib' htext => ?_⟩
  · have ht' := h.isProper_of_mem_custom ht
    exact ⟨ht'.writable.1, h.customOf?_eq_some_iff.2 ⟨ht, rfl⟩, ht'.origin_eq, ht'.writable.2⟩
  · -- a request either fails and leaves the library, or succeeds
    rcases perform_request_cases lib q with ⟨e', heq⟩ | ⟨lib', heq, -⟩
    · rw [heq]
    · rw [heq] at hq
      contradiction
  · rw [perform_importText] at htext
    cases hrecords : records? text with
    | none => simp [hrecords] at htext
    | some records =>
      rw [hrecords] at htext
      exact ⟨records, rfl, htext⟩

/-- One record of an import replaces a template and one is new; of another import the last record
has the name of a prebuilt template, and so not even the first is stored. -/
theorem after_consistent_ofImports :
    let a : Template := { name := "a", text := "$x", description := "" }
    let a' : Template := { name := "a", text := "$$", description := "new" }
    let b : Template := { name := "b", text := "", description := "" }
    let bad : Template := { name := "default", text := "", description := "" }
    let lib := after [.create b false, .delete "b", .create a false]
    lib.toList = prebuilt ++ [a] ∧
    lib.perform (Task.importRecords [b, a'] true) = (.ok 2, { entries := [("a", a'), ("b", b)] }) ∧
    lib.perform ([b, a'].mapM fun t => Task.create t true) =
      (.ok [true, false], { entries := [("a", a'), ("b", b)] }) ∧
    (after [.create b false, .delete "b", .create a false, .create a' true]).get? "a" = some a' ∧
    (lib.perform (Request.importRecords [b, bad] true).task).1 = .error (.readOnly "default") ∧
    (lib.perform (Request.importRecords [b, bad] true).task).2 = lib := by
  intro a a' b bad lib
  have hconsistent := after_consistent [.create b false, .delete "b", .create a false]
  obtain ⟨-, -, -, -, -, -, -, -, hfail, hcreate, himport, -⟩ := hconsistent
  have hok : lib.perform (Task.importRecords [b, a'] true) =
      (.ok 2, { entries := [("a", a'), ("b", b)] }) := by decide +kernel
  have herror : (lib.perform (Request.importRecords [b, bad] true).task).1 =
      .error (.readOnly "default") := by decide +kernel
  have hreplaced : lib.perform (Task.create a' true) =
      (.ok false, after [.create b false, .delete "b", .create a false, .create a' true]) := by
    decide +kernel
  obtain ⟨-, ⟨news, hnews⟩, -⟩ := himport _ _ _ _ hok
  refine ⟨by decide +kernel, hok, ?_, (hcreate _ _ _ _ hreplaced).1, herror, hfail _ _ herror⟩
  have hfirst : news = [true, false] := by
    have heq : (lib.perform ([b, a'].mapM fun t => Task.create t true)).1 = .ok [true, false] := by
      decide +kernel
    rw [hnews] at heq
    exact Except.ok.inj heq
  rw [hnews, hfirst]

end Library

end MarketAlerts.Template
