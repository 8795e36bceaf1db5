import MarketAlerts.Engine.Basic
import MarketAlerts.Proofs.Watchlist.Marks

/-!
# What a pass makes of one condition

`PassItem.pass` says what a pass makes of a condition that is alone: how it then stands, and the
event that comes of it. A pass over a whole watchlist makes the same of each of its conditions:

- `item?_commitPass`: the commit of all outcomes leaves each condition as the pass of its own does;
- `events_commitPass`: the events with the identifier of a condition are those of its own pass, up
  to the identifiers of events and passes, which are drawn at random;
- `sublist_emit_commitPass`: events come in the order of registration;
- `outcomes?_eq_none_iff`, `outcomes?_eq_some`: only a pass from condition to condition breaks off,
  and any other pass has the outcomes of all its conditions.
-/

namespace MarketAlerts

/-- A reading is that of the condition which was evaluated. -/
theorem conditionId_of_evaluate {historyLimit : Nat} {c : Condition} {m memory : Memory}
    {s : Snapshot} {reading : Reading} (h : evaluate historyLimit c m s = .ok (reading, memory)) :
    reading.conditionId = c.id := by
  unfold evaluate at h
  cases hobserved : Evaluation.observe historyLimit c m s with
  | error e => simp [hobserved, Except.map] at h
  | ok observed =>
    obtain ⟨value, seen⟩ := observed
    rw [hobserved] at h
    cases value with
    | none =>
      cases h
      rfl
    | some value =>
      cases h
      rfl

/-- The event without the identifiers that are drawn at random. -/
def Event.unnumbered (e : Event) : Event :=
  { e with id := .nil, context := { e.context with evaluationId := .nil } }

namespace PassItem

/-- The outcome of a condition. One whose evaluation overflows has failed. -/
def outcome (historyLimit : Nat) (s : Snapshot) (x : PassItem) : Outcome :=
  (x.outcome? historyLimit s).getD x.broken

/-- An evaluation with a reading has it as its outcome. -/
theorem outcome_of_ok {historyLimit : Nat} {s : Snapshot} {x : PassItem} {reading : Reading}
    {memory : Memory} (h : evaluate historyLimit x.condition x.memory s = .ok (reading, memory)) :
    x.outcome historyLimit s = .evaluated reading memory := by
  simp [outcome, outcome?, h]

/-- An evaluation that fails has its message as its outcome. -/
theorem outcome_of_error {historyLimit : Nat} {s : Snapshot} {x : PassItem} {e : EvaluationError}
    (h : evaluate historyLimit x.condition x.memory s = .error e) :
    x.outcome historyLimit s = .failed x.condition.id e.message := by
  cases e <;> simp [outcome, outcome?, h, broken]

/-- An outcome is that of its condition. -/
@[simp]
theorem conditionId_outcome (historyLimit : Nat) (s : Snapshot) (x : PassItem) :
    (x.outcome historyLimit s).conditionId = x.condition.id := by
  cases h : evaluate historyLimit x.condition x.memory s with
  | error e => rw [outcome_of_error h, Outcome.conditionId]
  | ok result =>
    -- a reading names its condition itself
    rw [outcome_of_ok h, Outcome.conditionId]
    exact conditionId_of_evaluate h

/-- What a pass makes of a condition that is alone, and its event. A pass does nothing to a
condition that it does not apply to. -/
def pass (settings : Engine.Settings) (began now : Instant) (s : Snapshot) (x : PassItem) :
    PassItem × Option Event :=
  if x.condition.appliesTo s.symbol then
    let r := x.condition.record
    let next := (Engine.dueAt? settings.interval now).join
    match evaluate settings.historyLimit x.condition x.memory s with
    | .ok (reading, memory) =>
      let record : Condition.Record := {
        status := if reading.satisfied then .triggered else .idle
        triggers := r.triggers + if reading.satisfied then 1 else 0
        evaluations := r.evaluations + 1
        lastTriggered := if reading.satisfied then some now else r.lastTriggered
        nextEvaluation := next
        lastError := none }
      (⟨{ x.condition with record }, memory⟩,
        if reading.satisfied then
          some (.ofCondition .nil now ⟨.nil, settings.strategy, began⟩ x.condition reading)
        else none)
    | .error e =>
      let record := { r with status := .error, nextEvaluation := next, lastError := e.message }
      (⟨{ x.condition with record }, x.memory⟩, none)
  else (x, none)

/-- A condition to which a snapshot does not apply is left as it is. -/
theorem pass_of_not_appliesTo {settings : Engine.Settings} {began now : Instant} {s : Snapshot}
    {x : PassItem} (h : ¬ x.condition.appliesTo s.symbol = true) :
    x.pass settings began now s = (x, none) :=
  if_neg h

end PassItem

/-! ## One condition of a watchlist -/

/-- Where keys are distinct, at most one entry has a given key. -/
theorem filter_eq_toList_find? {α β : Type*} [DecidableEq β] {f : α → β} {xs : List α}
    (h : (xs.map f).Nodup) (b : β) :
    xs.filter (fun x => f x = b) = (xs.find? fun x => f x = b).toList := by
  induction xs with
  | nil => rfl
  | cons x xs ih =>
    rw [List.map_cons, List.nodup_cons] at h
    rw [List.filter_cons, List.find?_cons]
    by_cases hx : f x = b
    · -- no later entry has the key of this one
      have hrest : xs.filter (fun y => f y = b) = [] := by
        rw [List.filter_eq_nil_iff]
        intro y hy hyb
        exact h.1 (hx ▸ of_decide_eq_true hyb ▸ List.mem_map_of_mem hy)
      simp [hx, hrest]
    · simpa [hx] using ih h.2

namespace Watch

variable {ids : List String} {w v : Watch}

/-- A watch that a pass may have marked differs in its status only. -/
theorem Shadows.exists_status (h : Shadows ids w v) :
    (∃ status, v.condition =
      { w.condition with record := { w.condition.record with status } }) ∧
    v.memory = w.memory := by
  rcases h with ⟨-, rfl⟩ | ⟨hitem, -⟩
  · exact ⟨⟨.evaluating, rfl⟩, rfl⟩
  · exact ⟨⟨w.condition.record.status, congrArg PassItem.condition hitem⟩,
      congrArg PassItem.memory hitem⟩

theorem Shadows.active_eq (h : Shadows ids w v) : v.condition.active = w.condition.active := by
  obtain ⟨⟨status, hcondition⟩, -⟩ := h.exists_status
  rw [hcondition]

/-- The mark of a pass has no effect on an evaluation: it does not look at the record. -/
theorem outcome_begin (w : Watch) (historyLimit : Nat) (s : Snapshot) :
    w.begin.item.outcome historyLimit s = w.item.outcome historyLimit s := rfl

/-- Applying an outcome leaves no trace of the mark of a pass. -/
theorem Shadows.item_apply (h : Shadows ids w v) {settings : Engine.Settings} {now : Instant}
    {next : Option Instant} (hdue : Engine.dueAt? settings.interval now = some next)
    (began : Instant) {s : Snapshot} (happ : w.condition.appliesTo s.symbol = true) :
    (v.apply now next (w.begin.item.outcome settings.historyLimit s)).item =
      (w.item.pass settings began now s).1 := by
  obtain ⟨⟨status, hcondition⟩, hmemory⟩ := h.exists_status
  rw [outcome_begin]
  unfold PassItem.pass
  rw [item_condition, item_memory, if_pos happ]
  -- an outcome overwrites the status, the only thing in which the two may differ
  cases heval : evaluate settings.historyLimit w.condition w.memory s with
  | ok result =>
    obtain ⟨reading, memory⟩ := result
    rw [PassItem.outcome_of_ok (x := w.item) heval]
    cases hsatisfied : reading.satisfied <;>
      simp [apply, item, hcondition, Condition.Record.count, hdue, hsatisfied]
  | error e =>
    rw [PassItem.outcome_of_error (x := w.item) heval]
    simp [apply, item, hcondition, hmemory, Condition.Record.fail, hdue]

end Watch

namespace Watchlist

variable {ids : List String} {l m : Watchlist}

/-- A watchlist with the marks of a pass holds a watch for each of the watchlist without them. -/
theorem Shadowed.exists_watch? (h : Shadowed ids l m) {id : String} {w : Watch}
    (hw : l.watch? id = some w) : ∃ v, m.watch? id = some v ∧ Watch.Shadows ids w v := by
  obtain ⟨l⟩ := l
  obtain ⟨m⟩ := m
  change List.Forall₂ (Watch.Shadows ids) l m at h
  induction h with
  | nil => cases hw
  | @cons w' v' l m hwv hrest ih =>
    simp only [watch?, List.find?_cons, hwv.id_eq] at hw ih ⊢
    split at hw
    next hid =>
      cases hw
      exact ⟨v', rfl, hwv⟩
    next hid => simpa [hid] using ih hw

/-- The condition that a pass takes up under an identifier. -/
theorem find?_beginPass (hnodup : l.ids.Nodup) (symbol id : String) :
    ((l.beginPass symbol).1.find? fun x => x.condition.id = id) =
      ((l.watch? id).filter fun w => w.condition.appliesTo symbol).map fun w => w.begin.item := by
  rw [beginPass_fst, List.find?_map, List.find?_filter, ← find?_and hnodup]
  congr 2
  funext w
  change decide (w.condition.appliesTo symbol = true ∧ decide (w.id = id) = true) = _
  simp [Bool.and_comm]

/-- What a pass takes up is determined by the conditions with their memories. -/
theorem beginPass_fst_eq_of_items_eq (h : m.items = l.items) (symbol : String) :
    (m.beginPass symbol).1 = (l.beginPass symbol).1 := by
  -- the marks of earlier passes are overwritten by the mark of this one
  have htaken : ∀ k : Watchlist, (k.beginPass symbol).1 =
      (k.items.filter fun x => x.condition.appliesTo symbol).map fun x =>
        ({ condition := x.condition, memory := x.memory } : Watch).begin.item := by
    intro k
    rw [beginPass_fst, items, List.filter_map, List.map_map]
    rfl
  rw [htaken, htaken, h]

/-- A pass that takes up no condition applies to none. -/
theorem any_appliesTo_of_beginPass_eq_nil (hnodup : l.ids.Nodup) {symbol : String}
    (h : (l.beginPass symbol).1 = []) (id : String) :
    (l.item? id).any (fun x => x.condition.appliesTo symbol) = false := by
  have hfind := find?_beginPass hnodup symbol id
  rw [h] at hfind
  rw [item?]
  cases hw : l.watch? id with
  | none => rfl
  | some w => simpa [hw, Option.filter_some] using hfind

/-- The outcomes of a pass over the watchlist. -/
def outcomes (l : Watchlist) (historyLimit : Nat) (s : Snapshot) : List Outcome :=
  (l.beginPass s.symbol).1.map (PassItem.outcome historyLimit s)

/-- The outcomes come in the order of the conditions that the pass takes up. -/
theorem map_conditionId_outcomes (l : Watchlist) (historyLimit : Nat) (s : Snapshot) :
    (l.outcomes historyLimit s).map Outcome.conditionId =
      (l.beginPass s.symbol).1.map (·.condition.id) := by
  simp [outcomes, Function.comp_def]

theorem nodup_outcomes (hnodup : l.ids.Nodup) (historyLimit : Nat) (s : Snapshot) :
    ((l.outcomes historyLimit s).map Outcome.conditionId).Nodup := by
  rw [map_conditionId_outcomes]
  exact hnodup.sublist (beginPass_sublist l s.symbol)

/-- A condition has an outcome if the snapshot applies to it. -/
theorem find?_outcomes (hnodup : l.ids.Nodup) (historyLimit : Nat) (s : Snapshot) (id : String) :
    ((l.outcomes historyLimit s).find? fun o => o.conditionId = id) =
      ((l.watch? id).filter fun w => w.condition.appliesTo s.symbol).map fun w =>
        w.begin.item.outcome historyLimit s := by
  have hid : (fun o : Outcome => decide (o.conditionId = id)) ∘ PassItem.outcome historyLimit s =
      fun x => decide (x.condition.id = id) := by
    funext x
    simp
  rw [outcomes, List.find?_map, hid, find?_beginPass hnodup, Option.map_map]
  rfl

section Commit

variable {settings : Engine.Settings} {now : Instant} {next : Option Instant} {s : Snapshot}

/-- The commit of a pass leaves each condition as a pass of its own does. -/
theorem item?_commitPass (hnodup : l.ids.Nodup)
    (hmarked : Shadowed ((l.beginPass s.symbol).1.map (·.condition.id)) l m)
    (hdue : Engine.dueAt? settings.interval now = some next) (began : Instant) (id : String) :
    (m.commitPass now next (l.outcomes settings.historyLimit s)).2.item? id =
      (l.item? id).map fun x => (x.pass settings began now s).1 := by
  have hm : m.ids.Nodup := hmarked.ids_eq ▸ hnodup
  have hfind := find?_outcomes hnodup settings.historyLimit s id
  have hos := nodup_outcomes hnodup settings.historyLimit s
  cases hw : l.watch? id with
  | none =>
    -- nobody comes to be registered by a commit
    have hnone : id ∉ (m.commitPass now next (l.outcomes settings.historyLimit s)).2.ids := by
      rw [ids_commitPass, hmarked.ids_eq, ← watch?_eq_none_iff, hw]
    rw [item?, item?, watch?_eq_none_iff.2 hnone, hw]
    rfl
  | some w =>
    obtain ⟨v, hv, hwv⟩ := hmarked.exists_watch? hw
    have hid : w.id = id := id_of_watch? hw
    rw [hw, Option.filter_some] at hfind
    rw [item?, item?, hw, Option.map_some, Option.map_some]
    by_cases happ : w.condition.appliesTo s.symbol = true
    · -- the pass has an outcome for the condition, which is active since it was taken up
      rw [if_pos happ, Option.map_some] at hfind
      have hactive : v.condition.active = true :=
        hwv.active_eq.trans (Condition.active_of_appliesTo happ)
      have hmem := List.mem_of_find?_eq_some hfind
      have hcommit : (m.commitPass now next (l.outcomes settings.historyLimit s)).2.watch? _ = _ :=
        watch?_commitPass_of_mem hm hos hmem
      rw [PassItem.conditionId_outcome, show w.begin.item.condition.id = id from hid, hv,
        Option.map_some, Watch.applyIfActive, if_pos hactive] at hcommit
      rw [hcommit, Option.map_some, hwv.item_apply hdue began happ]
    · -- the pass has no outcome for the condition, and it did not mark it either
      rw [if_neg happ, Option.map_none, List.find?_eq_none] at hfind
      have hnone : id ∉ (l.outcomes settings.historyLimit s).map Outcome.conditionId := by
        rw [List.mem_map]
        rintro ⟨o, ho, hoid⟩
        exact hfind o ho (decide_eq_true hoid)
      rw [watch?_commitPass_of_notMem hm hnone, hv, Option.map_some,
        PassItem.pass_of_not_appliesTo (x := w.item) happ]
      rcases hwv with ⟨hmem, -⟩ | ⟨hitem, -⟩
      · rw [map_conditionId_outcomes] at hnone
        exact absurd (hid ▸ hmem) hnone
      · rw [hitem]

/-- What a commit gives back under an identifier belongs to the outcome with that identifier. -/
theorem filter_commitPass_fst (hm : m.ids.Nodup) {os : List Outcome}
    (hos : (os.map Outcome.conditionId).Nodup) (id : String) :
    (m.commitPass now next os).1.filter (fun p => p.1.id = id) =
      ((os.find? fun o => o.conditionId = id).bind (m.reported? now next)).toList := by
  -- filtering what is given back is filtering the outcomes
  have hreported : ∀ o ∈ os, (m.reported? now next o).filter (fun p => p.1.id = id) =
      if (decide (o.conditionId = id)) = true then m.reported? now next o else none := by
    intro o _
    cases ho : m.reported? now next o with
    | none => simp
    | some p => simp [Option.filter_some, id_of_reported? ho]
  rw [commitPass_fst hm hos, List.filter_filterMap, List.filterMap_congr hreported,
    ← List.filterMap_filter, filter_eq_toList_find? hos]
  cases os.find? fun o => o.conditionId = id with
  | none => rfl
  | some o => cases ho : m.reported? now next o <;> simp [ho]

/-- Up to identifiers, a pass emits an event for each satisfied reading. -/
theorem map_unnumbered_emit (context : PassContext) (supply : Uuid.Supply)
    (readings : List (Condition × Reading)) :
    (Engine.emit context now supply readings).1.map Event.unnumbered =
      (readings.filter fun p => p.2.satisfied).map fun p =>
        .ofCondition .nil now { context with evaluationId := .nil } p.1 p.2 := by
  induction readings generalizing supply with
  | nil => rfl
  | cons p readings ih =>
    unfold Engine.emit
    split
    next hsatisfied =>
      rw [List.filter_cons, if_pos hsatisfied, List.map_cons, List.map_cons, ih]
      rfl
    next hsatisfied => rw [List.filter_cons, if_neg hsatisfied, ih]

/-- The events with an identifier come of the readings with it. -/
theorem filter_emit (context : PassContext) (supply : Uuid.Supply)
    (readings : List (Condition × Reading)) (id : String) :
    ((Engine.emit context now supply readings).1.filter fun e => e.conditionId = id).map
        Event.unnumbered =
      ((readings.filter fun p => p.1.id = id).filter fun p => p.2.satisfied).map fun p =>
        .ofCondition .nil now { context with evaluationId := .nil } p.1 p.2 := by
  have hunnumbered : (fun e : Event => decide (e.conditionId = id)) =
      (fun e : Event => decide (e.conditionId = id)) ∘ Event.unnumbered := rfl
  rw [hunnumbered, ← List.filter_map, map_unnumbered_emit, List.filter_map, List.filter_filter,
    List.filter_filter]
  congr 2
  funext p
  exact Bool.and_comm _ _

/-- The events with the identifier of a condition are those of a pass of its own. -/
theorem events_commitPass (hnodup : l.ids.Nodup)
    (hmarked : Shadowed ((l.beginPass s.symbol).1.map (·.condition.id)) l m)
    {context : PassContext} (hstrategy : context.strategy = settings.strategy) (now : Instant)
    (next : Option Instant) (supply : Uuid.Supply) (id : String) :
    ((Engine.emit context now supply
      (m.commitPass now next (l.outcomes settings.historyLimit s)).1).1.filter fun e =>
        e.conditionId = id).map Event.unnumbered =
      ((l.item? id).bind fun x => (x.pass settings context.timestamp now s).2).toList := by
  have hm : m.ids.Nodup := hmarked.ids_eq ▸ hnodup
  rw [filter_emit, filter_commitPass_fst hm (nodup_outcomes hnodup settings.historyLimit s),
    find?_outcomes hnodup, item?]
  cases hw : l.watch? id with
  | none => rfl
  | some w =>
    rw [Option.filter_some]
    by_cases happ : w.condition.appliesTo s.symbol = true
    · -- the one outcome with the identifier is that of the condition alone
      obtain ⟨v, hv, hwv⟩ := hmarked.exists_watch? hw
      have hactive : v.condition.active = true :=
        hwv.active_eq.trans (Condition.active_of_appliesTo happ)
      obtain ⟨⟨status, hcondition⟩, -⟩ := hwv.exists_status
      have hid : w.id = id := id_of_watch? hw
      rw [if_pos happ, Option.map_some, Option.map_some, Option.bind_some, Option.bind_some,
        Watch.outcome_begin, PassItem.pass, Watch.item_condition, Watch.item_memory, if_pos happ]
      cases heval : evaluate settings.historyLimit w.condition w.memory s with
      | error e =>
        rw [PassItem.outcome_of_error (x := w.item) heval]
        rfl
      | ok result =>
        obtain ⟨reading, memory⟩ := result
        have hreading : reading.conditionId = id := (conditionId_of_evaluate heval).trans hid
        rw [PassItem.outcome_of_ok (x := w.item) heval, reported?, Outcome.conditionId, hreading,
          hv, Option.filter_some, if_pos hactive, Option.map_some, Option.toList_some]
        cases hsatisfied : reading.satisfied with
        | false => simp [hsatisfied]
        | true => simp [hsatisfied, Watch.apply, hcondition, hstrategy, Event.ofCondition]
    · rw [if_neg happ, Option.map_some, Option.bind_some,
        PassItem.pass_of_not_appliesTo (x := w.item) happ]
      rfl

/-- What a commit gives back comes in the order of the outcomes. -/
theorem sublist_commitPass_fst (hm : m.ids.Nodup) {os : List Outcome}
    (hos : (os.map Outcome.conditionId).Nodup) :
    ((m.commitPass now next os).1.map (·.1.id)).Sublist (os.map Outcome.conditionId) := by
  rw [commitPass_fst hm hos]
  -- all outcomes are looked up in the same watchlist, so that distinct keys are not needed any more
  clear hos
  induction os with
  | nil => exact .slnil
  | cons o os ih =>
    rw [List.filterMap_cons]
    cases ho : m.reported? now next o with
    | none => exact ih.cons _
    | some p =>
      rw [List.map_cons, List.map_cons, id_of_reported? ho]
      exact ih.cons_cons _

/-- Events come in the order of the readings. -/
theorem sublist_emit (context : PassContext) (supply : Uuid.Supply)
    (readings : List (Condition × Reading)) :
    ((Engine.emit context now supply readings).1.map (·.conditionId)).Sublist
      (readings.map (·.1.id)) := by
  induction readings generalizing supply with
  | nil => exact .slnil
  | cons p readings ih =>
    unfold Engine.emit
    split
    next => exact (ih _).cons_cons _
    next => exact (ih _).cons _

/-- The events of a pass come in the order of registration. -/
theorem sublist_emit_commitPass (hnodup : l.ids.Nodup) (hids : m.ids = l.ids)
    (context : PassContext) (now : Instant) (next : Option Instant) (supply : Uuid.Supply)
    (historyLimit : Nat) (s : Snapshot) :
    ((Engine.emit context now supply
      (m.commitPass now next (l.outcomes historyLimit s)).1).1.map (·.conditionId)).Sublist
      m.ids := by
  have hm : m.ids.Nodup := hids ▸ hnodup
  refine (sublist_emit context supply _).trans ?_
  refine (sublist_commitPass_fst hm (nodup_outcomes hnodup historyLimit s)).trans ?_
  rw [map_conditionId_outcomes, hids]
  exact beginPass_sublist l s.symbol

end Commit

end Watchlist

/-! ## The outcomes of a pass -/

namespace Engine

variable {settings : Settings} {s : Snapshot}

/-- A pass that does not break off has the outcomes of all its conditions, be it from condition to
condition or over all at once. -/
theorem eq_map_outcome_of_outcomes? {items : List PassItem} {os : List Outcome}
    (h : outcomes? settings s items = some os) :
    os = items.map (PassItem.outcome settings.historyLimit s) := by
  unfold outcomes? at h
  cases hstrategy : settings.strategy with
  | parallel =>
    rw [hstrategy] at h
    exact (Option.some.inj h).symm
  | sequential =>
    rw [hstrategy] at h
    dsimp only at h
    induction items generalizing os with
    | nil => simpa using h.symm
    | cons x items ih =>
      rw [List.mapM_cons] at h
      obtain ⟨o, ho, hrest⟩ := Option.bind_eq_some_iff.1 h
      obtain ⟨others, hothers, hcons⟩ := Option.bind_eq_some_iff.1 hrest
      rw [List.map_cons, ← ih hothers, PassItem.outcome, ho]
      exact (Option.some.inj hcons).symm

/-- Only a pass from condition to condition breaks off, and exactly if an evaluation overflows. -/
theorem outcomes?_eq_none_iff {items : List PassItem} :
    outcomes? settings s items = none ↔ settings.strategy = .sequential ∧
      ∃ x ∈ items, x.outcome? settings.historyLimit s = none := by
  unfold outcomes?
  cases settings.strategy with
  | parallel => simp
  | sequential =>
    induction items with
    | nil => simp
    | cons x items ih =>
      rw [List.mapM_cons]
      cases hx : x.outcome? settings.historyLimit s with
      | none => simp [hx]
      | some o =>
        -- the first has an outcome, so that it is up to the others
        cases hitems : items.mapM (PassItem.outcome? settings.historyLimit s) with
        | none => simpa [hx, hitems] using ih
        | some os => simpa [hx, hitems] using ih

/-- Where no evaluation overflows in a pass from condition to condition, all conditions have
outcomes. -/
theorem outcomes?_eq_some {items : List PassItem}
    (h : settings.strategy = .sequential →
      ∀ x ∈ items, (x.outcome? settings.historyLimit s).isSome) :
    outcomes? settings s items = some (items.map (PassItem.outcome settings.historyLimit s)) := by
  cases hos : outcomes? settings s items with
  | some os => rw [eq_map_outcome_of_outcomes? hos]
  | none =>
    obtain ⟨hstrategy, x, hx, hnone⟩ := outcomes?_eq_none_iff.1 hos
    have hsome := h hstrategy x hx
    simp [hnone] at hsome

end Engine

end MarketAlerts
