import Mathlib.Data.List.Nodup
import MarketAlerts.Watchlist

/-!
# Edits of the watchlist

An `Edit` registers or removes a condition or switches one on or off; an edit that the watchlist
refuses changes nothing. What an edit does to the condition with one identifier depends on that
condition alone:

- `item?_edit`: an edit acts on each identifier by `Edit.on`;
- `item?_editAll`: so does a sequence of edits;
- `nodup_ids_edit`: edits keep the identifiers pairwise distinct.
-/

namespace MarketAlerts

/-- The rule that the price of a symbol is above one hundred. -/
def Condition.priceAbove (id symbol : String) : Condition where
  id
  name := id
  symbol
  observable := .price
  operator := .greaterThan
  threshold := .hundred

/-- The condition with its memory, without the bookkeeping of passes. -/
def Watch.item (w : Watch) : PassItem := ⟨w.condition, w.memory⟩

@[simp]
theorem Watch.item_condition (w : Watch) : w.item.condition = w.condition := rfl

@[simp]
theorem Watch.item_memory (w : Watch) : w.item.memory = w.memory := rfl

@[simp]
theorem Watch.id_ofCondition (c : Condition) : (Watch.ofCondition c).id = c.id := rfl

@[simp]
theorem Watch.id_setActive (active : Bool) (w : Watch) : (w.setActive active).id = w.id := by
  unfold Watch.setActive
  split <;> rfl

namespace PassItem

/-- A condition at its registration: it has neither a record nor a memory. -/
def ofCondition (c : Condition) : PassItem where
  condition := { c with record := { status := .atRest c.active } }
  memory := {}

/-- The condition switched on or off; nothing happens if it is so already. -/
def setActive (active : Bool) (x : PassItem) : PassItem :=
  if x.condition.active = active then x
  else
    { x with condition := {
      x.condition with
      active
      record := { x.condition.record with status := .atRest active } } }

end PassItem

/-- To switch a watch is to switch its condition. -/
theorem Watch.item_setActive (active : Bool) (w : Watch) :
    (w.setActive active).item = w.item.setActive active := by
  unfold Watch.setActive PassItem.setActive
  split <;> simp_all [Watch.item]

namespace Watchlist

/-- The identifiers in the order of registration. -/
def ids (l : Watchlist) : List String := l.watches.map Watch.id

/-- The conditions with their memories in the order of registration. -/
def items (l : Watchlist) : List PassItem := l.watches.map Watch.item

/-- The condition with an identifier and its memory. -/
def item? (l : Watchlist) (id : String) : Option PassItem := (l.watch? id).map Watch.item

/-- A request to change what is registered. -/
inductive Edit where
  /-- To register a condition. -/
  | register (c : Condition)
  /-- To remove the condition with an identifier. -/
  | unregister (id : String)
  /-- To switch the condition with an identifier on or off. -/
  | setActive (id : String) (active : Bool)

/-- The identifier of the condition that an edit is about. -/
def Edit.id : Edit → String
  | .register c => c.id
  | .unregister id => id
  | .setActive id _ => id

/-- What an edit does to the condition with an identifier, if there is one. -/
def Edit.on (id : String) (x : Option PassItem) : Edit → Option PassItem
  | .register c => if c.id = id then some (x.getD (.ofCondition c)) else x
  | .unregister other => if other = id then none else x
  | .setActive other active => if other = id then x.map (.setActive active) else x

/-- The watchlist after an edit. One that is refused changes nothing. -/
def edit (l : Watchlist) : Edit → Watchlist
  | .register c => (l.register c).toOption.getD l
  | .unregister id => ((l.unregister id).map (·.2)).toOption.getD l
  | .setActive id active => (l.setActive id active).toOption.getD l

/-- The watchlist after some edits. -/
def editAll (l : Watchlist) (ds : List Edit) : Watchlist := ds.foldl edit l

/-! ## Look-ups -/

section Lookup

variable {l : Watchlist} {id : String} {w : Watch}

theorem id_of_watch? (h : l.watch? id = some w) : w.id = id := by
  simpa using List.find?_some h

/-- A watch that is found is there. -/
theorem mem_of_watch? (h : l.watch? id = some w) : w ∈ l.watches := List.mem_of_find?_eq_some h

/-- Under an identifier that is not registered nothing is found. -/
theorem watch?_eq_none_iff : l.watch? id = none ↔ id ∉ l.ids := by
  simp [watch?, ids]

/-- Under an identifier that is registered something is found. -/
theorem isSome_watch?_iff : (l.watch? id).isSome ↔ id ∈ l.ids := by
  rw [← not_iff_not, Bool.not_eq_true, Option.isSome_eq_false_iff, Option.isNone_iff_eq_none,
    watch?_eq_none_iff]

/-- Where identifiers are distinct, every registered condition is found under its own. -/
theorem watch?_id_of_mem (hnodup : l.ids.Nodup) (hmem : w ∈ l.watches) :
    l.watch? w.id = some w := by
  obtain ⟨v, hv⟩ := Option.isSome_iff_exists.1
    (isSome_watch?_iff.2 (List.mem_map_of_mem (f := Watch.id) hmem))
  have hvw : v = w := List.inj_on_of_nodup_map hnodup (mem_of_watch? hv) hmem (id_of_watch? hv)
  rw [hv, hvw]

theorem ids_eq_map_items (l : Watchlist) : l.ids = l.items.map (·.condition.id) := by
  rw [ids, items, List.map_map]
  rfl

/-- A condition with its memory is found under its identifier. -/
theorem item?_eq_find? (l : Watchlist) (id : String) :
    l.item? id = l.items.find? fun x => x.condition.id = id := by
  rw [item?, watch?, items, List.find?_map]
  rfl

/-- What is found is determined by the conditions with their memories. -/
theorem item?_eq_of_items_eq {m : Watchlist} (h : m.items = l.items) (id : String) :
    m.item? id = l.item? id := by
  rw [item?_eq_find?, item?_eq_find?, h]

/-- The same holds of what `f` makes of them, if it keeps their identifiers. -/
theorem item?_map_eq_of_items_map_eq {f : PassItem → PassItem}
    (hf : ∀ x, (f x).condition.id = x.condition.id) {m : Watchlist}
    (h : m.items.map f = l.items.map f) (id : String) :
    (m.item? id).map f = (l.item? id).map f := by
  have hfind : ∀ k : Watchlist,
      (k.item? id).map f = (k.items.map f).find? fun x => x.condition.id = id := by
    intro k
    rw [item?_eq_find?, List.find?_map]
    simp only [Function.comp_def, hf]
  rw [hfind, hfind, h]

/-- Where identifiers are distinct, the conditions with their memories are determined by the
identifiers in their order and by what is found under each. -/
theorem items_map_eq_of_item?_map_eq {α : Type} (f : PassItem → α) {m : Watchlist}
    (hnodup : l.ids.Nodup) (hids : m.ids = l.ids)
    (h : ∀ id, (m.item? id).map f = (l.item? id).map f) : m.items.map f = l.items.map f := by
  have hitems : ∀ k : Watchlist, k.ids.Nodup →
      k.ids.filterMap (fun id => (k.item? id).map f) = k.items.map f := by
    intro k hk
    rw [ids, List.filterMap_map, items, List.map_map, ← List.filterMap_eq_map]
    refine List.filterMap_congr fun w hw => ?_
    rw [Function.comp_apply, item?, watch?_id_of_mem hk hw]
    rfl
  rw [← hitems m (hids ▸ hnodup), ← hitems l hnodup, hids]
  exact List.filterMap_congr fun id _ => h id

/-- Where the same is found under the same identifiers in the same order, the conditions are the
same. -/
theorem items_eq_of_item?_eq {m : Watchlist} (hnodup : l.ids.Nodup) (hids : m.ids = l.ids)
    (h : ∀ id, m.item? id = l.item? id) : m.items = l.items := by
  have hmap := items_map_eq_of_item?_map_eq id hnodup hids fun id => by rw [h id]
  rwa [List.map_id, List.map_id] at hmap

/-- Changing conditions in place changes what is found in the same way. -/
theorem watch?_map (l : Watchlist) {f : Watch → Watch} (hf : ∀ v, (f v).id = v.id) (id : String) :
    (Watchlist.mk (l.watches.map f)).watch? id = (l.watch? id).map f := by
  have hid : (fun v => decide (v.id = id)) ∘ f = fun v => decide (v.id = id) := by
    funext v
    simp [hf]
  rw [watch?, List.find?_map, hid]
  rfl

theorem ids_map (l : Watchlist) {f : Watch → Watch} (hf : ∀ v, (f v).id = v.id) :
    (Watchlist.mk (l.watches.map f)).ids = l.ids := by
  simp [ids, hf, Function.comp_def]

theorem id_ite {f : Watch → Watch} (hf : ∀ v, (f v).id = v.id) (p : Prop) [Decidable p]
    (v : Watch) : (if p then f v else v).id = v.id := by
  split
  · exact hf v
  · rfl

theorem ids_modify {f : Watch → Watch} (hf : ∀ v, (f v).id = v.id) :
    (l.modify id f).ids = l.ids :=
  ids_map l fun v => id_ite hf _ v

/-- Only the watch that is changed is found changed. -/
theorem watch?_modify {f : Watch → Watch} (hf : ∀ v, (f v).id = v.id) (other : String) :
    (l.modify id f).watch? other =
      if id = other then (l.watch? other).map f else l.watch? other := by
  rw [modify, watch?_map l fun v => id_ite hf _ v]
  cases hw : l.watch? other with
  | none => simp
  | some v =>
    have hv := id_of_watch? hw
    by_cases h : id = other
    · simp [h, hv]
    · simp [h, hv, Ne.symm h]

end Lookup

/-! ## Each kind of edit -/

section Kinds

variable (l : Watchlist)

/-- A registration comes last, unless the identifier is taken. -/
theorem edit_register (c : Condition) :
    l.edit (.register c) = if c.id ∈ l.ids then l else ⟨l.watches ++ [.ofCondition c]⟩ := by
  simp only [edit, register, ← isSome_watch?_iff]
  split <;> rfl

/-- A removal leaves the others in their order. -/
theorem edit_unregister (id : String) :
    l.edit (.unregister id) = ⟨l.watches.filter fun w => w.id ≠ id⟩ := by
  simp only [edit, unregister]
  cases hw : l.watch? id with
  | some w => rfl
  | none =>
    -- nobody is removed: nobody has the identifier
    have hall : l.watches.filter (fun w => w.id ≠ id) = l.watches := by
      rw [List.filter_eq_self]
      intro w hmem
      have hne := List.find?_eq_none.1 hw w hmem
      simpa using hne
    rw [hall]
    rfl

/-- A switch changes one watch. -/
theorem edit_setActive (id : String) (active : Bool) :
    l.edit (.setActive id active) = l.modify id (Watch.setActive active) := by
  simp only [edit, setActive]
  cases hw : l.watch? id with
  | some w => rfl
  | none =>
    -- nobody has the identifier, so that nobody changes
    have hall : l.watches.map (fun w => if w.id = id then w.setActive active else w) =
        l.watches := by
      refine (List.map_congr_left fun w hmem => ?_).trans (List.map_id _)
      have hne := List.find?_eq_none.1 hw w hmem
      rw [decide_eq_true_eq] at hne
      rw [if_neg hne]
      rfl
    rw [modify, hall]
    rfl

/-- A new condition comes last, so that it hides nobody. -/
theorem watch?_edit_register (c : Condition) (id : String) :
    (l.edit (.register c)).watch? id =
      if c.id = id then some ((l.watch? id).getD (.ofCondition c)) else l.watch? id := by
  rw [edit_register]
  by_cases hmem : c.id ∈ l.ids
  · -- the identifier is taken: whoever has it stays
    rw [if_pos hmem]
    split
    next h =>
      subst h
      obtain ⟨w, hw⟩ := Option.isSome_iff_exists.1 (isSome_watch?_iff.2 hmem)
      simp [hw]
    next h => rfl
  · rw [if_neg hmem]
    split
    next h =>
      subst h
      have hnone := watch?_eq_none_iff.2 hmem
      simp only [watch?, List.find?_append] at hnone ⊢
      simp [hnone]
    next h => simp [watch?, List.find?_append, h]

/-- A watch that is removed is not found, and the others are. -/
theorem watch?_edit_unregister (other id : String) :
    (l.edit (.unregister other)).watch? id = if other = id then none else l.watch? id := by
  rw [edit_unregister, watch?, List.find?_filter]
  split
  next h => simp [h]
  next h =>
    -- a search for `id` passes over `other` anyway
    have hsame : (fun w : Watch => decide (w.id ≠ other) && decide (w.id = id)) =
        fun w => decide (w.id = id) := by
      funext w
      by_cases hw : w.id = id
      · simp [hw, Ne.symm h]
      · simp [hw]
    rw [watch?]
    simp only [← hsame]
    simp

/-- A watch that is switched is found so, and the others are as before. -/
theorem watch?_edit_setActive (other : String) (active : Bool) (id : String) :
    (l.edit (.setActive other active)).watch? id =
      if other = id then (l.watch? id).map (Watch.setActive active) else l.watch? id := by
  rw [edit_setActive, watch?_modify (Watch.id_setActive active)]

end Kinds

/-! ## What edits do -/

/-- An edit acts on the condition with an identifier as if there were no others. -/
theorem item?_edit (l : Watchlist) (d : Edit) (id : String) :
    (l.edit d).item? id = d.on id (l.item? id) := by
  cases d with
  | register c =>
    rw [Edit.on, item?, watch?_edit_register, item?]
    split
    next h => cases l.watch? id <;> rfl
    next h => rfl
  | unregister other =>
    rw [Edit.on, item?, watch?_edit_unregister]
    split
    next h => rfl
    next h => rfl
  | setActive other active =>
    rw [Edit.on, item?, watch?_edit_setActive]
    split
    next h =>
      simp only [item?, Option.map_map]
      congr 1
      funext w
      exact Watch.item_setActive active w
    next h => rfl

/-- Edits act on the condition with an identifier as if there were no others. -/
theorem item?_editAll (l : Watchlist) (ds : List Edit) (id : String) :
    (l.editAll ds).item? id = ds.foldl (fun x d => d.on id x) (l.item? id) := by
  induction ds generalizing l with
  | nil => rfl
  | cons d ds ih =>
    rw [editAll, List.foldl_cons, ← editAll, ih, item?_edit, List.foldl_cons]

/-- Edits keep the identifiers distinct. -/
theorem nodup_ids_edit {l : Watchlist} (hnodup : l.ids.Nodup) (d : Edit) :
    (l.edit d).ids.Nodup := by
  cases d with
  | register c =>
    rw [edit_register]
    split
    next => exact hnodup
    next hmem =>
      rw [ids, List.map_append, List.map_singleton, Watch.id_ofCondition, List.nodup_append]
      refine ⟨hnodup, List.nodup_singleton _, ?_⟩
      -- the new identifier is none of the old ones
      intro a ha b hb hab
      rw [List.mem_singleton] at hb
      exact hmem (hb ▸ hab ▸ ha)
  | unregister id =>
    rw [edit_unregister]
    exact hnodup.sublist (List.filter_sublist.map _)
  | setActive id active =>
    rw [edit_setActive, ids_modify (Watch.id_setActive active)]
    exact hnodup

theorem nodup_ids_editAll {l : Watchlist} (hnodup : l.ids.Nodup) (ds : List Edit) :
    (l.editAll ds).ids.Nodup := by
  induction ds generalizing l with
  | nil => exact hnodup
  | cons d ds ih => exact ih (nodup_ids_edit hnodup d)

end Watchlist

end MarketAlerts
