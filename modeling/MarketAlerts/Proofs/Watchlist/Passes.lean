import MarketAlerts.Proofs.Watchlist.Edits

/-!
# Passes over the watchlist

What the two ends of a pass do to the condition with one identifier, in every watchlist whose
identifiers are distinct. Those are all that can come about (`Reachable.nodup`).

- `watch?_beginPass`: the beginning of a pass marks the conditions that it applies to;
- `watch?_commitPass_of_mem`, `watch?_commitPass_of_notMem`: its commit applies each outcome to
  the active condition under the identifier of the outcome, and changes no other;
- `commitPass_fst`: it gives back the evaluated conditions in the order of the outcomes.
-/

namespace MarketAlerts

/-- A snapshot applies to active conditions only. -/
theorem Condition.active_of_appliesTo {c : Condition} {symbol : String}
    (h : c.appliesTo symbol = true) : c.active = true := by
  rw [Condition.appliesTo, Bool.and_eq_true] at h
  exact h.1

namespace Watch

@[simp]
theorem id_begin (w : Watch) : w.begin.id = w.id := rfl

@[simp]
theorem id_abort (w : Watch) : w.abort.id = w.id := by
  unfold abort
  split <;> rfl

@[simp]
theorem id_apply (now : Instant) (next : Option Instant) (o : Outcome) (w : Watch) :
    (w.apply now next o).id = w.id := by
  cases o <;> rfl

/-- The condition with the outcome applied to it if it is active. -/
def applyIfActive (now : Instant) (next : Option Instant) (o : Outcome) (w : Watch) : Watch :=
  if w.condition.active then w.apply now next o else w

@[simp]
theorem id_applyIfActive (now : Instant) (next : Option Instant) (o : Outcome) (w : Watch) :
    (w.applyIfActive now next o).id = w.id := by
  unfold applyIfActive
  split <;> simp

end Watch

namespace Watchlist

/-- The watchlists that come about by edits and by the ends of passes, in any order. -/
inductive Reachable : Watchlist → Prop
  /-- At first nothing is registered. -/
  | empty : Reachable {}
  /-- An edit. -/
  | edit {l : Watchlist} (d : Edit) : Reachable l → Reachable (l.edit d)
  /-- The beginning of a pass. -/
  | beginPass {l : Watchlist} (symbol : String) : Reachable l → Reachable (l.beginPass symbol).2
  /-- The commit of a pass. -/
  | commitPass {l : Watchlist} (now : Instant) (next : Option Instant) (outcomes : List Outcome) :
      Reachable l → Reachable (l.commitPass now next outcomes).2
  /-- The end of a cancelled pass. -/
  | abortPass {l : Watchlist} (ids : List String) : Reachable l → Reachable (l.abortPass ids)

/-! ## The beginning of a pass -/

section Begin

variable {l : Watchlist} {symbol : String}

/-- The watch that a pass takes up is marked, any other stays. -/
def markFor (symbol : String) (w : Watch) : Watch :=
  if w.condition.appliesTo symbol then w.begin else w

theorem id_markFor (symbol : String) (w : Watch) : (markFor symbol w).id = w.id :=
  id_ite Watch.id_begin _ w

/-- The beginning of a pass marks the conditions to which its snapshot applies. -/
theorem beginPass_snd (l : Watchlist) (symbol : String) :
    (l.beginPass symbol).2 = ⟨l.watches.map (markFor symbol)⟩ := rfl

@[simp]
theorem ids_beginPass : (l.beginPass symbol).2.ids = l.ids :=
  ids_map l (id_markFor symbol)

/-- A watch is found marked, if the snapshot applies to it. -/
theorem watch?_beginPass (id : String) :
    (l.beginPass symbol).2.watch? id = (l.watch? id).map (markFor symbol) :=
  watch?_map l (id_markFor symbol) id

/-- A pass takes up the conditions to which its snapshot applies, in their order. -/
theorem beginPass_fst (l : Watchlist) (symbol : String) :
    (l.beginPass symbol).1 =
      (l.watches.filter fun w => w.condition.appliesTo symbol).map fun w => w.begin.item := by
  simp only [beginPass, List.map_map]
  rfl

/-- The conditions of a pass come in the order of registration. -/
theorem beginPass_sublist (l : Watchlist) (symbol : String) :
    ((l.beginPass symbol).1.map (·.condition.id)).Sublist l.ids := by
  rw [beginPass_fst, List.map_map]
  exact List.filter_sublist.map Watch.id

/-- A pass takes up a condition exactly if it applies to the condition. -/
theorem mem_beginPass_iff (hnodup : l.ids.Nodup) {x : PassItem} :
    x ∈ (l.beginPass symbol).1 ↔
      ∃ w, l.watch? x.condition.id = some w ∧ w.condition.appliesTo symbol ∧
        x = w.begin.item := by
  rw [beginPass_fst]
  simp only [List.mem_map, List.mem_filter]
  constructor
  · rintro ⟨w, ⟨hmem, happ⟩, rfl⟩
    exact ⟨w, watch?_id_of_mem hnodup hmem, happ, rfl⟩
  · rintro ⟨w, hw, happ, rfl⟩
    exact ⟨w, ⟨mem_of_watch? hw, happ⟩, rfl⟩

end Begin

/-! ## The commit of a pass -/

section Commit

variable {l : Watchlist} {now : Instant} {next : Option Instant}

/-- Where identifiers are distinct, a search for an identifier and more looks at one watch only. -/
theorem find?_and (hnodup : l.ids.Nodup) (id : String) (p : Watch → Bool) :
    l.watches.find? (fun w => w.id = id && p w) = (l.watch? id).filter p := by
  cases hfind : l.watches.find? fun w => w.id = id && p w with
  | some w =>
    have hw : w.id = id ∧ p w = true := by simpa using List.find?_some hfind
    have hwatch := watch?_id_of_mem hnodup (List.mem_of_find?_eq_some hfind)
    rw [hw.1] at hwatch
    rw [hwatch, Option.filter_some, if_pos hw.2]
  | none =>
    cases hwatch : l.watch? id with
    | none => rfl
    | some w =>
      have hne := List.find?_eq_none.1 hfind w (mem_of_watch? hwatch)
      have hw : p w = false := by simpa [id_of_watch? hwatch] using hne
      simp [Option.filter_some, hw]

/-- What a commit gives back for an outcome: the condition after it, with its reading. -/
def reported? (l : Watchlist) (now : Instant) (next : Option Instant) (o : Outcome) :
    Option (Condition × Reading) :=
  match o with
  | .evaluated reading _ =>
    ((l.watch? o.conditionId).filter fun w => w.condition.active).map fun w =>
      ((w.apply now next o).condition, reading)
  | .failed .. => none

/-- An outcome is given back of a condition that is there and active. -/
theorem commit_fst (hnodup : l.ids.Nodup) (o : Outcome) :
    (l.commit now next o).1 = l.reported? now next o := by
  unfold commit reported?
  rw [find?_and hnodup]
  cases (l.watch? o.conditionId).filter fun w => w.condition.active with
  | none => cases o <;> rfl
  | some w => cases o <;> rfl

/-- An outcome is applied to its condition, if that is active. -/
theorem commit_snd (hnodup : l.ids.Nodup) (o : Outcome) :
    (l.commit now next o).2 = l.modify o.conditionId (Watch.applyIfActive now next o) := by
  -- only what happens to the watch with the identifier matters
  have hmap : ∀ f g : Watch → Watch, (∀ w ∈ l.watches, w.id = o.conditionId → f w = g w) →
      l.modify o.conditionId f = l.modify o.conditionId g := by
    intro f g hfg
    simp only [modify, Watchlist.mk.injEq]
    refine List.map_congr_left fun w hmem => ?_
    split
    next h => exact hfg w hmem h
    next => rfl
  unfold commit
  rw [find?_and hnodup]
  cases hfind : (l.watch? o.conditionId).filter fun w => w.condition.active with
  | none =>
    -- whoever has the identifier is not active, so that nothing is applied
    have hid : l.modify o.conditionId (fun w => w) = l := by simp [modify]
    refine hid.symm.trans (hmap _ _ fun w hmem hw => ?_)
    have hwatch := watch?_id_of_mem hnodup hmem
    rw [hw] at hwatch
    have hinactive : w.condition.active = false := by simpa [hwatch] using hfind
    simp [Watch.applyIfActive, hinactive]
  | some v =>
    obtain ⟨hv, hactive⟩ := Option.filter_eq_some_iff.1 hfind
    have hsnd : l.modify o.conditionId (Watch.apply now next o) =
        l.modify o.conditionId (Watch.applyIfActive now next o) := by
      refine hmap _ _ fun w hmem hw => ?_
      have hwatch := watch?_id_of_mem hnodup hmem
      rw [hw, hv, Option.some.injEq] at hwatch
      rw [Watch.applyIfActive, if_pos (hwatch ▸ hactive)]
    cases o <;> exact hsnd

@[simp]
theorem ids_commit (l : Watchlist) (o : Outcome) : (l.commit now next o).2.ids = l.ids := by
  have hmodify : (l.modify o.conditionId (Watch.apply now next o)).ids = l.ids :=
    ids_modify (Watch.id_apply now next o)
  unfold commit
  split
  next => rfl
  next => cases o <;> exact hmodify

@[simp]
theorem ids_commitPass (l : Watchlist) (os : List Outcome) :
    (l.commitPass now next os).2.ids = l.ids := by
  induction os generalizing l with
  | nil => rfl
  | cons o os ih => exact (ih _).trans (ids_commit l o)

/-- Only the watch of an outcome is found changed. -/
theorem watch?_commit (hnodup : l.ids.Nodup) (o : Outcome) (id : String) :
    (l.commit now next o).2.watch? id =
      if o.conditionId = id then (l.watch? id).map (Watch.applyIfActive now next o)
      else l.watch? id := by
  rw [commit_snd hnodup, watch?_modify (Watch.id_applyIfActive now next o)]

/-- A commit leaves a condition alone for which there is no outcome. -/
theorem watch?_commitPass_of_notMem (hnodup : l.ids.Nodup) {os : List Outcome} {id : String}
    (hid : id ∉ os.map Outcome.conditionId) :
    (l.commitPass now next os).2.watch? id = l.watch? id := by
  induction os generalizing l with
  | nil => rfl
  | cons o os ih =>
    simp only [List.map_cons, List.mem_cons, not_or] at hid
    have hrest := ih (l := (l.commit now next o).2) (by simpa using hnodup) hid.2
    exact hrest.trans (by rw [watch?_commit hnodup, if_neg (Ne.symm hid.1)])

/-- A commit applies an outcome to the condition under its identifier, if that is active. -/
theorem watch?_commitPass_of_mem (hnodup : l.ids.Nodup) {os : List Outcome}
    (hos : (os.map Outcome.conditionId).Nodup) {o : Outcome} (hmem : o ∈ os) :
    (l.commitPass now next os).2.watch? o.conditionId =
      (l.watch? o.conditionId).map (Watch.applyIfActive now next o) := by
  induction os generalizing l with
  | nil => simp at hmem
  | cons p os ih =>
    rw [List.map_cons, List.nodup_cons] at hos
    have hnodup' : (l.commit now next p).2.ids.Nodup := by simpa using hnodup
    rcases List.mem_cons.1 hmem with rfl | hmem
    · -- no later outcome has the identifier
      have hrest : ((l.commit now next o).2.commitPass now next os).2.watch? o.conditionId =
          (l.commit now next o).2.watch? o.conditionId :=
        watch?_commitPass_of_notMem hnodup' hos.1
      exact hrest.trans (by rw [watch?_commit hnodup, if_pos rfl])
    · have hne : p.conditionId ≠ o.conditionId := fun h =>
        hos.1 (h ▸ List.mem_map_of_mem (f := Outcome.conditionId) hmem)
      refine (ih hnodup' hos.2 hmem).trans ?_
      rw [watch?_commit hnodup, if_neg hne]

/-- A commit gives back the evaluated conditions in the order of the outcomes, each as it was
found. -/
theorem commitPass_fst (hnodup : l.ids.Nodup) {os : List Outcome}
    (hos : (os.map Outcome.conditionId).Nodup) :
    (l.commitPass now next os).1 = os.filterMap (l.reported? now next) := by
  induction os generalizing l with
  | nil => rfl
  | cons o os ih =>
    rw [List.map_cons, List.nodup_cons] at hos
    -- the first outcome does not change what the others find
    have hsame : ∀ p ∈ os,
        (l.commit now next o).2.reported? now next p = l.reported? now next p := by
      intro p hp
      have hne : o.conditionId ≠ p.conditionId := fun h =>
        hos.1 (h ▸ List.mem_map_of_mem (f := Outcome.conditionId) hp)
      unfold reported?
      rw [watch?_commit hnodup, if_neg hne]
    have hrest := ih (l := (l.commit now next o).2) (by simpa using hnodup) hos.2
    rw [List.filterMap_congr hsame] at hrest
    rw [commitPass]
    simp only [commit_fst hnodup, hrest]
    cases ho : l.reported? now next o with
    | none => simp [ho]
    | some p => simp [ho]

/-- Every outcome that a commit gives something back for is one of an evaluation, and the
condition given back has its identifier. -/
theorem id_of_reported? {o : Outcome} {p : Condition × Reading}
    (h : l.reported? now next o = some p) : p.1.id = o.conditionId := by
  cases o with
  | failed id message => simp [reported?] at h
  | evaluated reading memory =>
    obtain ⟨w, hw, rfl⟩ := Option.map_eq_some_iff.1 h
    exact (Watch.id_apply _ _ _ w).trans (id_of_watch? (Option.filter_eq_some_iff.1 hw).1)

end Commit

@[simp]
theorem ids_abortPass (l : Watchlist) (ids : List String) : (l.abortPass ids).ids = l.ids :=
  ids_map l fun w => id_ite Watch.id_abort _ w

/-- In every watchlist that comes about the identifiers are distinct. -/
theorem Reachable.nodup {l : Watchlist} (h : l.Reachable) : l.ids.Nodup := by
  induction h with
  | empty => exact List.nodup_nil
  | edit d _ ih => exact nodup_ids_edit ih d
  | beginPass symbol _ ih => simpa using ih
  | commitPass now next outcomes _ ih => simpa using ih
  | abortPass ids _ ih => simpa using ih

end Watchlist

end MarketAlerts
