import Mathlib.Data.List.Induction
import MarketAlerts.Proofs.Watchlist.Records

/-!
# Histories of a watchlist

A history is a list of operations: edits, beginnings of passes, commits of any outcomes and ends of
cancelled passes, in any order. A pass need not be ended, and it can be ended more than once.

- `fate_perform`: what one operation can do to the condition under an identifier (`Fate`);
- `isCoherent_of_mem_after`: whatever the history, every registered condition is coherent;
- `registered_after`, `pairwise_ids_after`: each was registered at some step of the history and not
  removed since, and conditions come in the order of these steps;
- `after_coherent`: all of it, and that counts never go down while a condition is registered.
-/

namespace MarketAlerts.Watchlist

open Relation (ReflTransGen)

/-- What can be done to a watchlist. -/
inductive Operation where
  /-- An edit. -/
  | edit (d : Edit)
  /-- The beginning of a pass. -/
  | beginPass (symbol : String)
  /-- The commit of a pass. -/
  | commitPass (now : Instant) (next : Option Instant) (outcomes : List Outcome)
  /-- The end of a cancelled pass. -/
  | abortPass (ids : List String)

/-- The watchlist after an operation. -/
def perform (l : Watchlist) : Operation → Watchlist
  | .edit d => l.edit d
  | .beginPass symbol => (l.beginPass symbol).2
  | .commitPass now next outcomes => (l.commitPass now next outcomes).2
  | .abortPass ids => l.abortPass ids

/-- The watchlist after a history. At first nothing is registered. -/
def after (ops : List Operation) : Watchlist := ops.foldl perform {}

/-- Whether the condition under an identifier was registered at a step of a history, and not removed
since. -/
structure RegisteredAt (ops : List Operation) (id : String) (step : Nat) : Prop where
  accepted : ∃ c : Condition, ops[step]? = some (.edit (.register c)) ∧ c.id = id ∧
    id ∉ (after (ops.take step)).ids
  kept : .edit (.unregister id) ∉ ops.drop (step + 1)

/-! ## One operation -/

/-- What an operation can do to the condition under an identifier. -/
inductive Fate (op : Operation) (id : String) : Option Watch → Option Watch → Prop
  /-- There is none. -/
  | absent : Fate op id none none
  /-- It is registered. -/
  | registered {c : Condition} (hid : c.id = id) (hop : op = .edit (.register c)) :
    Fate op id none (some (.ofCondition c))
  /-- It is removed. -/
  | removed {w : Watch} (hop : op = .edit (.unregister id)) : Fate op id (some w) none
  /-- It remains. -/
  | kept {w v : Watch} (hturns : ReflTransGen Watch.Turns w v) : Fate op id (some w) (some v)

section Operation

variable {l : Watchlist} {op : Operation} {id : String}

/-- Under any operation a watch may stay as it is. -/
theorem fate_self (op : Operation) (id : String) (x : Option Watch) : Fate op id x x := by
  cases x with
  | none => exact .absent
  | some w => exact .kept .refl

/-- Under any operation a watch may turn into what turns make of it. -/
theorem fate_map {f : Watch → Watch} (hf : ∀ w, ReflTransGen Watch.Turns w (f w)) (op : Operation)
    (id : String) (x : Option Watch) : Fate op id x (x.map f) := by
  cases x with
  | none => exact .absent
  | some w => exact .kept (hf w)

/-- An edit does to a watch what it may do. -/
theorem fate_edit (l : Watchlist) (d : Edit) (id : String) :
    Fate (.edit d) id (l.watch? id) ((l.edit d).watch? id) := by
  cases d with
  | register c =>
    rw [watch?_edit_register]
    split
    next hid =>
      cases l.watch? id with
      | none => exact .registered hid rfl
      | some w => exact .kept .refl
    next => exact fate_self _ id _
  | unregister other =>
    rw [watch?_edit_unregister]
    split
    next hid =>
      subst hid
      cases l.watch? other with
      | none => exact .absent
      | some w => exact .removed rfl
    next => exact fate_self _ id _
  | setActive other active =>
    rw [watch?_edit_setActive]
    split
    next => exact fate_map (fun w => .single (.setActive w active)) _ id _
    next => exact fate_self _ id _

/-- The mark of a pass is a turn, or none. -/
theorem turns_markFor (symbol : String) (w : Watch) :
    ReflTransGen Watch.Turns w (markFor symbol w) := by
  unfold markFor
  split
  next happ => exact .single (.begin (Condition.active_of_appliesTo happ))
  next => exact .refl

/-- An outcome is a turn, or none. -/
theorem turns_applyIfActive (now : Instant) (next : Option Instant) (o : Outcome) (w : Watch) :
    ReflTransGen Watch.Turns w (w.applyIfActive now next o) := by
  unfold Watch.applyIfActive
  split
  next hactive => exact .single (.apply hactive now next o)
  next => exact .refl

/-- A commit applies its outcomes one after the other. -/
theorem fate_commitPass (hnodup : l.ids.Nodup) (now : Instant) (next : Option Instant)
    (outcomes : List Outcome) (op : Operation) (id : String) :
    Fate op id (l.watch? id) ((l.commitPass now next outcomes).2.watch? id) := by
  suffices h : ∃ f : Watch → Watch, (∀ w, ReflTransGen Watch.Turns w (f w)) ∧
      (l.commitPass now next outcomes).2.watch? id = (l.watch? id).map f by
    obtain ⟨f, hf, hwatch⟩ := h
    rw [hwatch]
    exact fate_map hf op id _
  induction outcomes generalizing l with
  | nil => exact ⟨fun w => w, fun w => .refl, by simp [commitPass]⟩
  | cons o outcomes ih =>
    obtain ⟨f, hf, hrest⟩ := ih (l := (l.commit now next o).2) (by simpa using hnodup)
    rw [watch?_commit hnodup] at hrest
    split at hrest
    next =>
      refine ⟨f ∘ Watch.applyIfActive now next o, fun w => ?_, ?_⟩
      · exact (turns_applyIfActive now next o w).trans (hf _)
      · rw [← Option.map_map]
        exact hrest
    next => exact ⟨f, hf, hrest⟩

/-- Any operation does to a watch what it may do. -/
theorem fate_perform (hnodup : l.ids.Nodup) (op : Operation) (id : String) :
    Fate op id (l.watch? id) ((l.perform op).watch? id) := by
  cases op with
  | edit d => exact fate_edit l d id
  | beginPass symbol =>
    rw [perform, watch?_beginPass]
    exact fate_map (turns_markFor symbol) _ id _
  | commitPass now next outcomes => exact fate_commitPass hnodup now next outcomes _ id
  | abortPass ids =>
    rw [perform, abortPass, watch?_map l fun w => id_ite Watch.id_abort _ w]
    refine fate_map (fun w => ?_) _ id _
    split
    next => exact .single (.abort w)
    next => exact .refl

end Operation

/-! ## Histories -/

section History

variable {ops : List Operation} {op : Operation} {id : String}

/-- The last operation comes after all others. -/
theorem after_concat (ops : List Operation) (op : Operation) :
    after (ops ++ [op]) = (after ops).perform op := by
  simp [after]

/-- A history leads to a watchlist that can be reached. -/
theorem reachable_after (ops : List Operation) : (after ops).Reachable := by
  induction ops using List.reverseRecOn with
  | nil => exact .empty
  | append_singleton ops op ih =>
    rw [after_concat]
    cases op with
    | edit d => exact ih.edit d
    | beginPass symbol => exact ih.beginPass symbol
    | commitPass now next outcomes => exact ih.commitPass now next outcomes
    | abortPass ids => exact ih.abortPass ids

theorem nodup_ids_after (ops : List Operation) : (after ops).ids.Nodup :=
  (reachable_after ops).nodup

/-- One more operation does to a watch what it may do. -/
theorem fate_after (ops : List Operation) (op : Operation) (id : String) :
    Fate op id ((after ops).watch? id) ((after (ops ++ [op])).watch? id) := by
  rw [after_concat]
  exact fate_perform (nodup_ids_after ops) op id

/-- What may become of a coherent watch is coherent. -/
theorem Fate.isCoherent {x y : Option Watch} (h : Fate op id x y)
    (hx : ∀ w ∈ x, w.IsCoherent) : ∀ w ∈ y, w.IsCoherent := by
  cases h with
  | absent => exact hx
  | registered hid hop =>
    rintro w ⟨⟩
    exact Watch.isCoherent_ofCondition _
  | removed hop => rintro w ⟨⟩
  | @kept w v hturns =>
    rintro v ⟨⟩
    induction hturns with
    | refl => exact hx w rfl
    | tail hturns hstep ih => exact hstep.isCoherent ih

/-- After a history all watches are coherent. -/
theorem isCoherent_of_watch?_after (ops : List Operation) (id : String) :
    ∀ w ∈ (after ops).watch? id, w.IsCoherent := by
  induction ops using List.reverseRecOn with
  | nil => rintro w ⟨⟩
  | append_singleton ops op ih => exact (fate_after ops op id).isCoherent ih

/-- Whatever the history, the parts of every registered condition go together. -/
theorem isCoherent_of_mem_after {w : Watch} (hw : w ∈ (after ops).watches) : w.IsCoherent :=
  isCoherent_of_watch?_after ops w.id w (watch?_id_of_mem (nodup_ids_after ops) hw)

/-- A condition that nobody removes remains registered, and its counts do not go down. -/
theorem watch?_after_append {more : List Operation} (hmore : .edit (.unregister id) ∉ more)
    {w : Watch} (hw : (after ops).watch? id = some w) :
    ∃ v, (after (ops ++ more)).watch? id = some v ∧
      w.condition.record.triggers ≤ v.condition.record.triggers ∧
      w.condition.record.evaluations ≤ v.condition.record.evaluations := by
  -- what is registered later is the same condition after some turns
  suffices h : ∃ v, (after (ops ++ more)).watch? id = some v ∧ ReflTransGen Watch.Turns w v by
    obtain ⟨v, hv, hturns⟩ := h
    refine ⟨v, hv, ?_⟩
    clear hv
    induction hturns with
    | refl => exact ⟨Nat.le_refl _, Nat.le_refl _⟩
    | tail _ hstep ih =>
      have hcounts := hstep.counts_le
      exact ⟨Nat.le_trans ih.1 hcounts.1, Nat.le_trans ih.2 hcounts.2⟩
  induction more using List.reverseRecOn with
  | nil => exact ⟨w, by simpa using hw, .refl⟩
  | append_singleton more op ih =>
    simp only [List.mem_append, List.mem_singleton, not_or] at hmore
    obtain ⟨v, hv, hturns⟩ := ih hmore.1
    have hfate := fate_after (ops ++ more) op id
    rw [hv, List.append_assoc] at hfate
    generalize hnext : (after (ops ++ (more ++ [op]))).watch? id = next at hfate
    cases hfate with
    | removed hop => exact absurd hop.symm hmore.2
    | kept hrest => exact ⟨_, rfl, hturns.trans hrest⟩

/-! ## The order of registration -/

/-- Later operations do not undo a registration unless they remove it. -/
theorem RegisteredAt.concat {step : Nat} (h : RegisteredAt ops id step)
    (hop : op ≠ .edit (.unregister id)) : RegisteredAt (ops ++ [op]) id step := by
  obtain ⟨c, hstep, hid, hfree⟩ := h.accepted
  have hlt : step < ops.length := (List.getElem?_eq_some_iff.1 hstep).1
  refine ⟨⟨c, ?_, hid, ?_⟩, ?_⟩
  · rw [List.getElem?_append_left hlt, hstep]
  · rwa [List.take_append_of_le_length (Nat.le_of_lt hlt)]
  · rw [List.drop_append_of_le_length hlt, List.mem_append, List.mem_singleton, not_or]
    exact ⟨h.kept, hop.symm⟩

/-- A registration is a step of the history. -/
theorem RegisteredAt.lt_length {step : Nat} (h : RegisteredAt ops id step) : step < ops.length := by
  obtain ⟨c, hstep, -⟩ := h.accepted
  exact (List.getElem?_eq_some_iff.1 hstep).1

/-- A condition whose identifier is free is registered by the step that does it. -/
theorem registeredAt_length {c : Condition} (hfree : c.id ∉ (after ops).ids) :
    RegisteredAt (ops ++ [.edit (.register c)]) c.id ops.length :=
  ⟨⟨c, by simp, rfl, by simpa using hfree⟩, by simp⟩

/-- What is removed is not there. -/
theorem notMem_ids_edit_unregister (l : Watchlist) (id : String) :
    id ∉ (l.edit (.unregister id)).ids := by
  rw [← watch?_eq_none_iff, watch?_edit_unregister, if_pos rfl]

/-- What an operation makes of the identifiers: it registers a new one behind the others, or it
registers none. -/
theorem ids_perform (l : Watchlist) (op : Operation) :
    (∃ c, op = .edit (.register c) ∧ c.id ∉ l.ids ∧ (l.perform op).ids = l.ids ++ [c.id]) ∨
      (l.perform op).ids.Sublist l.ids := by
  cases op with
  | edit d =>
    cases d with
    | register c =>
      rw [perform, edit_register]
      split
      next => exact .inr (.refl _)
      -- the only operation that adds an identifier
      next hfree => exact .inl ⟨c, rfl, hfree, by simp [ids]⟩
    | unregister other =>
      rw [perform, edit_unregister]
      exact .inr (List.filter_sublist.map _)
    | setActive other active =>
      rw [perform, edit_setActive, ids_modify (Watch.id_setActive active)]
      exact .inr (.refl _)
  | beginPass symbol =>
    rw [perform, ids_beginPass]
    exact .inr (.refl _)
  | commitPass now next outcomes =>
    rw [perform, ids_commitPass]
    exact .inr (.refl _)
  | abortPass ids =>
    rw [perform, ids_abortPass]
    exact .inr (.refl _)

/-- Whoever is registered after an operation was not removed by it. -/
theorem ne_unregister_of_mem_ids (hid : id ∈ (after (ops ++ [op])).ids) :
    op ≠ .edit (.unregister id) := by
  rintro rfl
  rw [after_concat] at hid
  exact notMem_ids_edit_unregister _ id hid

/-- Every registered condition was registered at some step and not removed since. -/
theorem registered_after (ops : List Operation) :
    ∀ id ∈ (after ops).ids, ∃ step, RegisteredAt ops id step := by
  induction ops using List.reverseRecOn with
  | nil => exact fun id hid => by simp [after, ids] at hid
  | append_singleton ops op ih =>
    intro id hid
    have hop := ne_unregister_of_mem_ids hid
    rw [after_concat] at hid
    rcases ids_perform (after ops) op with ⟨c, rfl, hfree, hids⟩ | hsublist
    · rw [hids, List.mem_append, List.mem_singleton] at hid
      rcases hid with hid | rfl
      · obtain ⟨step, hstep⟩ := ih id hid
        exact ⟨step, hstep.concat hop⟩
      · -- this operation has registered it
        exact ⟨ops.length, registeredAt_length hfree⟩
    · obtain ⟨step, hstep⟩ := ih id (hsublist.subset hid)
      exact ⟨step, hstep.concat hop⟩

/-- Conditions come in the order of the steps at which they were registered. -/
theorem pairwise_ids_after (ops : List Operation) :
    (after ops).ids.Pairwise fun a b =>
      ∃ i j, i < j ∧ RegisteredAt ops a i ∧ RegisteredAt ops b j := by
  induction ops using List.reverseRecOn with
  | nil => exact .nil
  | append_singleton ops op ih =>
    -- the steps of those that remain are the same as before
    have hremain : ∀ a ∈ (after (ops ++ [op])).ids, ∀ b ∈ (after (ops ++ [op])).ids,
        (∃ i j, i < j ∧ RegisteredAt ops a i ∧ RegisteredAt ops b j) →
        ∃ i j, i < j ∧ RegisteredAt (ops ++ [op]) a i ∧ RegisteredAt (ops ++ [op]) b j := by
      rintro a ha b hb ⟨i, j, hij, hi, hj⟩
      exact ⟨i, j, hij, hi.concat (ne_unregister_of_mem_ids ha),
        hj.concat (ne_unregister_of_mem_ids hb)⟩
    rw [after_concat] at hremain ⊢
    rcases ids_perform (after ops) op with ⟨c, rfl, hfree, hids⟩ | hsublist
    · rw [hids] at hremain ⊢
      rw [List.pairwise_append]
      refine ⟨ih.imp_of_mem fun {a b} ha hb h => ?_, List.pairwise_singleton _ _,
        fun a ha b hb => ?_⟩
      · exact hremain a (List.mem_append_left _ ha) b (List.mem_append_left _ hb) h
      · -- the new one was registered after all others
        rw [List.mem_singleton] at hb
        subst hb
        obtain ⟨step, hstep⟩ := registered_after ops a ha
        exact ⟨step, ops.length, hstep.lt_length, hstep.concat nofun, registeredAt_length hfree⟩
    · exact (ih.sublist hsublist).imp_of_mem fun {a b} ha hb h => hremain a ha b hb h

end History

/-- Whatever edits, beginnings of passes, commits and ends of cancelled passes came before, in any
order and with any outcomes, also where passes were never ended: identifiers are distinct and come
in the order of registration, and the status, the counts, the last error and the memory of every
registered condition go together. While a condition is not removed it remains registered, and its
counts do not go down. -/
theorem after_coherent (ops : List Operation) :
    (after ops).ids.Nodup ∧
    ((after ops).ids.Pairwise fun a b =>
      ∃ i j, i < j ∧ RegisteredAt ops a i ∧ RegisteredAt ops b j) ∧
    (∀ w ∈ (after ops).watches, w.IsCoherent) ∧
    ∀ (more : List Operation) (id : String) (w : Watch), .edit (.unregister id) ∉ more →
      (after ops).watch? id = some w → ∃ v, (after (ops ++ more)).watch? id = some v ∧
        w.condition.record.triggers ≤ v.condition.record.triggers ∧
        w.condition.record.evaluations ≤ v.condition.record.evaluations :=
  ⟨nodup_ids_after ops, pairwise_ids_after ops, fun _ hw => isCoherent_of_mem_after hw,
    fun _ _ _ hmore hw => watch?_after_append hmore hw⟩

/-- The first of two conditions is removed and registered again, triggered by one pass, and taken up
by another one that is never ended. It comes last, is coherent while it has the mark of that pass,
and keeps its counts when it is switched off. -/
theorem after_coherent_midway :
    let outcome := Outcome.evaluated ⟨"c1", true, .hundred, "price"⟩ { previous := some .hundred }
    let ops : List Operation :=
      [.edit (.register (.priceAbove "c1" "BTCUSDT")),
        .edit (.register (.priceAbove "c2" "BTCUSDT")), .edit (.unregister "c1"),
        .edit (.register (.priceAbove "c1" "BTCUSDT")), .beginPass "BTCUSDT",
        .commitPass ⟨0, 0⟩ none [outcome], .beginPass "BTCUSDT"]
    (after ops).ids = ["c2", "c1"] ∧
      ∃ w ∈ (after ops).watches, w.IsCoherent ∧ w.condition.record.status = .evaluating ∧
        ∃ v, (after (ops ++ [.edit (.setActive "c1" false)])).watch? "c1" = some v ∧
          1 ≤ v.condition.record.triggers ∧ 1 ≤ v.condition.record.evaluations := by
  intro outcome ops
  obtain ⟨-, -, hcoherent, hcounts⟩ := after_coherent ops
  obtain ⟨w, hw⟩ : ∃ w, (after ops).watch? "c1" = some w :=
    Option.isSome_iff_exists.1 (by rfl)
  have hrecord : ((after ops).watch? "c1").map (fun w =>
      (w.condition.record.status, w.condition.record.triggers, w.condition.record.evaluations)) =
      some (.evaluating, 1, 1) := by rfl
  simp only [hw, Option.map_some, Option.some.injEq, Prod.mk.injEq] at hrecord
  obtain ⟨hstatus, htriggers, hevaluations⟩ := hrecord
  obtain ⟨v, hv, hle⟩ := hcounts [.edit (.setActive "c1" false)] "c1" w (by simp) hw
  rw [htriggers, hevaluations] at hle
  exact ⟨by rfl, w, mem_of_watch? hw, hcoherent w (mem_of_watch? hw), hstatus, v, hv, hle⟩

end MarketAlerts.Watchlist
