import Mathlib.Data.List.Forall2
import MarketAlerts.Proofs.Watchlist.Passes

/-!
# The marks of a pass

While a pass is in flight its conditions are marked, and edits may change, remove or register
anew what is marked. `Shadowed` says how a watchlist with such marks stands to the watchlist
without the pass.

- `Shadowed.beginPass`: the beginning of a pass brings the marks;
- `Shadowed.editAll`: edits treat a watchlist with marks as they treat the one without;
- `Shadowed.abortPass`, `Shadowed.items_eq`: the end of a cancelled pass takes the marks back, and
  then the two watchlists hold the same conditions and memories in the same order.
-/

namespace MarketAlerts

namespace Watch

/-- How a watch `v` that a pass over the conditions `ids` may have marked stands to the watch `w`
without the pass: it has the mark of the pass, or it is the same and has no mark that the end of
the pass would take back. -/
def Shadows (ids : List String) (w v : Watch) : Prop :=
  (w.id ∈ ids ∧ v = w.begin) ∨
    (v.item = w.item ∧ (w.id ∈ ids → w.condition.record.status ≠ .evaluating))

variable {ids : List String} {w v : Watch}

theorem id_eq_of_item_eq (h : v.item = w.item) : v.id = w.id :=
  congrArg (fun x : PassItem => x.condition.id) h

theorem Shadows.id_eq (h : Shadows ids w v) : v.id = w.id := by
  rcases h with ⟨-, rfl⟩ | ⟨hitem, -⟩
  · rfl
  · exact id_eq_of_item_eq hitem

/-- Only the condition and the memory without the mark matter. -/
theorem Shadows.of_item_eq (h : Shadows ids w v) {u : Watch} (hitem : u.item = w.item) :
    Shadows ids u v := by
  have hcondition : u.condition = w.condition := congrArg PassItem.condition hitem
  have hmemory : u.memory = w.memory := congrArg PassItem.memory hitem
  rcases h with ⟨hmem, rfl⟩ | ⟨hvw, hstatus⟩
  · refine .inl ⟨id_eq_of_item_eq hitem ▸ hmem, ?_⟩
    rw [begin, begin, hcondition, hmemory]
  · rw [← id_eq_of_item_eq hitem, ← hcondition] at hstatus
    exact .inr ⟨hvw.trans hitem.symm, hstatus⟩

/-- What is at rest is not marked. -/
theorem atRest_ne_evaluating (active : Bool) : Condition.Status.atRest active ≠ .evaluating := by
  cases active <;> simp [Condition.Status.atRest]

/-- A new watch has no mark. -/
theorem shadows_ofCondition (ids : List String) (c : Condition) :
    Shadows ids (ofCondition c) (ofCondition c) :=
  .inr ⟨rfl, fun _ => atRest_ne_evaluating c.active⟩

/-- Switching on or off overwrites the mark of a pass, or does nothing at all. -/
theorem Shadows.setActive (h : Shadows ids w v) (active : Bool) :
    Shadows ids (w.setActive active) (v.setActive active) := by
  by_cases hactive : w.condition.active = active
  · have hv : v.condition.active = active := by
      rcases h with ⟨-, rfl⟩ | ⟨hitem, -⟩
      · exact hactive
      · rw [← item_condition, hitem, item_condition, hactive]
    rwa [Watch.setActive, if_pos hactive, Watch.setActive, if_pos hv]
  · -- the new status is at rest in both, whatever it was before
    refine .inr ⟨?_, fun _ => ?_⟩
    · rcases h with ⟨-, rfl⟩ | ⟨hitem, -⟩
      · simp [Watch.setActive, hactive, item, begin]
      · rw [item_setActive, item_setActive, hitem]
    · rw [Watch.setActive, if_neg hactive]
      exact atRest_ne_evaluating active

/-- The end of the pass takes its mark back, and nothing else. -/
theorem Shadows.abort (h : Shadows ids w v) :
    Shadows [] w (if ids.contains v.id then v.abort else v) := by
  rw [h.id_eq]
  refine .inr ⟨?_, fun hmem => by simp at hmem⟩
  rcases h with ⟨hmem, rfl⟩ | ⟨hitem, hstatus⟩
  · simp [hmem, Watch.abort, begin, item]
  · -- an edit has overwritten the mark, so that there is nothing to take back
    split
    next hmem =>
      have hne : v.condition.record.status ≠ .evaluating := by
        rw [← item_condition, hitem]
        exact hstatus (by simpa using hmem)
      rw [Watch.abort, if_neg hne, hitem]
    next => exact hitem

end Watch

namespace Watchlist

/-- How a watchlist `m` with the marks of a pass over the conditions `ids` stands to the watchlist
`l` without the pass. -/
def Shadowed (ids : List String) (l m : Watchlist) : Prop :=
  List.Forall₂ (Watch.Shadows ids) l.watches m.watches

namespace Shadowed

variable {ids : List String} {l m : Watchlist}

theorem refl (l : Watchlist) : Shadowed [] l l :=
  List.forall₂_same.2 fun _ _ => .inr ⟨rfl, fun hmem => by simp at hmem⟩

/-- Changes that keep watches apart by marks only keep watchlists so. -/
theorem map {R : Watch → Watch → Prop} {ids' : List String} {f g : Watch → Watch}
    (h : List.Forall₂ R l.watches m.watches)
    (hfg : ∀ w v, R w v → Watch.Shadows ids' (f w) (g v)) :
    Shadowed ids' ⟨l.watches.map f⟩ ⟨m.watches.map g⟩ :=
  List.forall₂_map_left_iff.2 (List.forall₂_map_right_iff.2 (h.imp hfg))

theorem ids_eq (h : Shadowed ids l m) : m.ids = l.ids := by
  have hids : List.Forall₂ (· = ·) (l.watches.map Watch.id) (m.watches.map Watch.id) :=
    List.forall₂_map_left_iff.2
      (List.forall₂_map_right_iff.2 (h.imp fun _ _ hwv => hwv.id_eq.symm))
  rw [List.forall₂_eq_eq_eq] at hids
  exact hids.symm

/-- Without marks, conditions and memories are the same in the same order. -/
theorem items_eq (h : Shadowed [] l m) : m.items = l.items := by
  have hitems : List.Forall₂ (· = ·) (l.watches.map Watch.item) (m.watches.map Watch.item) := by
    refine List.forall₂_map_left_iff.2 (List.forall₂_map_right_iff.2 (h.imp fun w v hwv => ?_))
    rcases hwv with ⟨hmem, -⟩ | ⟨hitem, -⟩
    · simp at hmem
    · exact hitem.symm
  rw [List.forall₂_eq_eq_eq] at hitems
  exact hitems.symm

/-- Only the conditions and memories without the marks matter. -/
theorem of_items_eq (h : Shadowed ids l m) {k : Watchlist} (hitems : k.items = l.items) :
    Shadowed ids k m := by
  obtain ⟨l⟩ := l
  obtain ⟨m⟩ := m
  obtain ⟨k⟩ := k
  change List.Forall₂ (Watch.Shadows ids) l m at h
  change k.map Watch.item = l.map Watch.item at hitems
  change List.Forall₂ (Watch.Shadows ids) k m
  induction h generalizing k with
  | nil =>
    rw [List.map_eq_nil_iff.1 hitems]
    exact .nil
  | cons hwv _ ih =>
    obtain ⟨w, ws, rfl, hw, hws⟩ := List.map_eq_cons_iff.1 hitems
    exact .cons (hwv.of_item_eq hw) (ih ws hws)

/-- An edit treats a watchlist with marks as it treats the one without. -/
theorem edit (h : Shadowed ids l m) (d : Edit) : Shadowed ids (l.edit d) (m.edit d) := by
  cases d with
  | register c =>
    rw [edit_register, edit_register, h.ids_eq]
    split
    next => exact h
    next => exact List.rel_append h (.cons (Watch.shadows_ofCondition ids c) .nil)
  | unregister id =>
    rw [edit_unregister, edit_unregister]
    refine List.rel_filter (fun w v hwv => ?_) h
    simp [hwv.id_eq]
  | setActive id active =>
    rw [edit_setActive, edit_setActive]
    refine map h fun w v hwv => ?_
    rw [hwv.id_eq]
    split
    next => exact hwv.setActive active
    next => exact hwv

/-- Edits go past marks, one after the other. -/
theorem editAll (h : Shadowed ids l m) (ds : List Edit) :
    Shadowed ids (l.editAll ds) (m.editAll ds) := by
  induction ds generalizing l m with
  | nil => exact h
  | cons d ds ih => exact ih (h.edit d)

/-- The beginning of a pass marks the conditions that it takes up. -/
theorem beginPass (h : Shadowed [] l m) (hnodup : l.ids.Nodup) (symbol : String) :
    Shadowed ((m.beginPass symbol).1.map (·.condition.id)) l (m.beginPass symbol).2 := by
  have hm : m.ids.Nodup := h.ids_eq ▸ hnodup
  have htaken : ∀ v ∈ m.watches,
      v.id ∈ (m.beginPass symbol).1.map (·.condition.id) ↔ v.condition.appliesTo symbol := by
    intro v hv
    rw [List.mem_map]
    constructor
    · rintro ⟨x, hx, hid⟩
      obtain ⟨u, hu, happ, -⟩ := (mem_beginPass_iff hm).1 hx
      -- distinct identifiers: what was taken up under the identifier is the watch itself
      rw [hid, watch?_id_of_mem hm hv, Option.some.injEq] at hu
      exact hu ▸ happ
    · intro happ
      exact ⟨v.begin.item,
        (mem_beginPass_iff hm).2 ⟨v, watch?_id_of_mem hm hv, happ, rfl⟩, rfl⟩
  rw [beginPass_snd]
  refine List.forall₂_map_right_iff.2 (List.forall₂_iff_zip.2 ⟨h.length_eq, fun {w v} hwv => ?_⟩)
  have hv := htaken v (List.of_mem_zip hwv).2
  rcases List.forall₂_zip h hwv with ⟨hmem, -⟩ | ⟨hitem, -⟩
  · simp at hmem
  have hcondition : v.condition = w.condition := congrArg PassItem.condition hitem
  rw [Watch.id_eq_of_item_eq hitem] at hv
  unfold markFor
  split
  next happ =>
    refine .inl ⟨hv.2 happ, ?_⟩
    rw [Watch.begin, Watch.begin, hcondition, ← Watch.item_memory v, hitem, Watch.item_memory]
  next happ => exact .inr ⟨hitem, fun hmem => absurd (hv.1 hmem) happ⟩

/-- The end of a cancelled pass takes the marks back. -/
theorem abortPass (h : Shadowed ids l m) : Shadowed [] l (m.abortPass ids) :=
  List.forall₂_map_right_iff.2 (h.imp fun _ _ hwv => hwv.abort)

end Shadowed

end Watchlist

end MarketAlerts
