import MarketAlerts.Proofs.Engine.Serial

/-!
# What makes a condition fire

A condition fires when a pass ends in which its reading is satisfied. Only then the number of its
triggers and the time of the last one change, and there is an event for it.

- `Watchlist.firings_commitPass`: in a commit only conditions with a satisfied reading fire;
- `Session.Step.firings_cases`: in a step of the first call only conditions with an event fire;
- `Session.Step.awaited_cases`: the passes that are awaited, and which of them a step answers.
-/

namespace MarketAlerts

/-- How often a condition triggered, and when last. -/
def Condition.Record.firings (r : Record) : Nat × Option Instant := (r.triggers, r.lastTriggered)

namespace Watchlist

variable {l : Watchlist}

/-- How often the condition with an identifier triggered, and when last. -/
def firings (l : Watchlist) (id : String) : Option (Nat × Option Instant) :=
  (l.get? id).map fun c => c.record.firings

theorem id_of_get? {id : String} {c : Condition} (h : l.get? id = some c) : c.id = id := by
  obtain ⟨w, hw, rfl⟩ := Option.map_eq_some_iff.1 h
  exact id_of_watch? hw

/-- A condition that is registered is found. -/
theorem exists_get?_of_mem_ids {id : String} (h : id ∈ l.ids) : ∃ c, l.get? id = some c := by
  obtain ⟨w, hw⟩ := Option.isSome_iff_exists.1 (isSome_watch?_iff.2 h)
  exact ⟨w.condition, by rw [get?, hw, Option.map_some]⟩

section Changes

variable {f : Watch → Watch} (hid : ∀ v, (f v).id = v.id)
  (hfirings : ∀ v, (f v).condition.record.firings = v.condition.record.firings)

include hid hfirings

theorem firings_map (l : Watchlist) (id : String) :
    (Watchlist.mk (l.watches.map f)).firings id = l.firings id := by
  rw [firings, get?, watch?_map l hid, firings, get?]
  cases l.watch? id with
  | none => rfl
  | some w => exact congrArg some (hfirings w)

theorem firings_modify (key id : String) : (l.modify key f).firings id = l.firings id :=
  firings_map (fun v => id_ite hid _ v)
    (fun v => by split; exacts [hfirings v, rfl]) l id

end Changes

theorem firings_beginPass (l : Watchlist) (symbol id : String) :
    (l.beginPass symbol).2.firings id = l.firings id := by
  refine firings_map (id_markFor symbol) (fun v => ?_) l id
  unfold markFor
  split <;> rfl

theorem firings_abortPass (l : Watchlist) (ids : List String) (id : String) :
    (l.abortPass ids).firings id = l.firings id := by
  refine firings_map (fun v => id_ite Watch.id_abort _ v) (fun v => ?_) l id
  split
  next =>
    unfold Watch.abort
    split <;> rfl
  next => rfl

section Commit

variable {now : Instant} {next : Option Instant}

/-- What is given back is registered. -/
theorem id_mem_of_commit {o : Outcome} {p : Condition × Reading}
    (h : (l.commit now next o).1 = some p) : p.1.id ∈ l.ids := by
  unfold commit at h
  split at h
  next => cases h
  next w hw =>
    cases o with
    | failed id message => cases h
    | evaluated reading memory =>
      cases h
      have hmem : w.id ∈ l.ids := List.mem_map_of_mem (List.mem_of_find?_eq_some hw)
      exact hmem

/-- What a commit gives back is of conditions that are registered. -/
theorem id_mem_of_mem_commitPass {os : List Outcome} {p : Condition × Reading}
    (h : p ∈ (l.commitPass now next os).1) : p.1.id ∈ l.ids := by
  induction os generalizing l with
  | nil => cases h
  | cons o os ih =>
    rcases List.mem_append.1 h with h | h
    · exact id_mem_of_commit (Option.mem_toList.1 h)
    · exact ids_commit l o ▸ ih h

/-- A condition fires only if it is given back with a reading that is satisfied. -/
theorem firings_commit (l : Watchlist) (now : Instant) (next : Option Instant) (o : Outcome)
    (id : String) :
    (l.commit now next o).2.firings id = l.firings id ∨
      ∃ p, (l.commit now next o).1 = some p ∧ p.2.satisfied = true ∧ p.1.id = id := by
  unfold commit
  split
  next => exact .inl rfl
  next w hw =>
    have hwid : w.id = o.conditionId := by
      have hfound := List.find?_some hw
      rw [Bool.and_eq_true, decide_eq_true_iff] at hfound
      exact hfound.1
    cases o with
    -- an error is counted as an evaluation and never as a firing
    | failed other message => exact .inl (firings_modify (Watch.id_apply _ _ _) (fun _ => rfl) _ _)
    | evaluated reading memory =>
      cases hsatisfied : reading.satisfied with
      | false =>
        refine .inl (firings_modify (Watch.id_apply _ _ _) (fun v => ?_) _ _)
        simp [Watch.apply, Condition.Record.count, Condition.Record.firings, hsatisfied]
      | true =>
        by_cases h : reading.conditionId = id
        · exact .inr ⟨_, rfl, hsatisfied, hwid.trans h⟩
        · refine .inl ?_
          rw [firings, get?, watch?_modify (Watch.id_apply _ _ _), Outcome.conditionId, if_neg h]
          rfl

/-- A commit leaves the triggers of a condition, unless it gives back that it was met. -/
theorem firings_commitPass (l : Watchlist) (now : Instant) (next : Option Instant)
    (os : List Outcome) (id : String) :
    (l.commitPass now next os).2.firings id = l.firings id ∨
      ∃ p ∈ (l.commitPass now next os).1, p.2.satisfied = true ∧ p.1.id = id := by
  induction os generalizing l with
  | nil => exact .inl rfl
  | cons o os ih =>
    rcases ih (l.commit now next o).2 with hrest | ⟨p, hp, hfires⟩
    · rcases l.firings_commit now next o id with hfirst | ⟨p, hp, hfires⟩
      · exact .inl (hrest.trans hfirst)
      · exact .inr ⟨p, List.mem_append_left _ (Option.mem_toList.2 hp), hfires⟩
    · exact .inr ⟨p, List.mem_append_right _ hp, hfires⟩

end Commit

end Watchlist

namespace Engine

/-- The events of a pass that gave them. -/
def Answer.passed? : Answer → Option (List Event)
  | .pass result => result.toOption
  | .stopped => none

section Commit

variable {e : Engine} {context : PassContext} {now : Instant} {outcomes : List Outcome}

/-- Every satisfied reading becomes an event. -/
theorem exists_mem_emit {supply : Uuid.Supply} {readings : List (Condition × Reading)}
    {p : Condition × Reading} (hp : p ∈ readings) (hsatisfied : p.2.satisfied = true) :
    ∃ event ∈ (emit context now supply readings).1, event.conditionId = p.1.id := by
  have hmem : .ofCondition .nil now { context with evaluationId := .nil } p.1 p.2 ∈
      (emit context now supply readings).1.map Event.unnumbered := by
    rw [Watchlist.map_unnumbered_emit]
    exact List.mem_map_of_mem (List.mem_filter.2 ⟨hp, hsatisfied⟩)
  obtain ⟨event, hevent, heq⟩ := List.mem_map.1 hmem
  exact ⟨event, hevent, congrArg Event.conditionId heq⟩

/-- The end of a pass leaves the triggers of a condition, unless it has an event of it. -/
theorem firings_commitPass (id : String) :
    (e.commitPass context now outcomes).2.watchlist.firings id = e.watchlist.firings id ∨
      ∃ events, (e.commitPass context now outcomes).1 = .ok events ∧
        ∃ event ∈ events, event.conditionId = id := by
  unfold commitPass
  split
  next => exact .inl rfl
  next next _ =>
    rcases e.watchlist.firings_commitPass now next outcomes id with h | ⟨p, hp, hsatisfied, rfl⟩
    · exact .inl h
    · exact .inr ⟨_, rfl, exists_mem_emit hp hsatisfied⟩

/-- The events of a pass are of conditions that are registered. -/
theorem conditionId_mem_of_commitPass {events : List Event}
    (h : (e.commitPass context now outcomes).1 = .ok events) :
    ∀ event ∈ events, event.conditionId ∈ e.watchlist.ids := by
  unfold commitPass at h
  split at h
  next => cases h
  next next _ =>
    cases h
    intro event hevent
    have hmem := (Watchlist.sublist_emit context e.supply _).subset
      (List.mem_map_of_mem hevent)
    obtain ⟨p, hp, hid⟩ := List.mem_map.1 hmem
    exact hid ▸ Watchlist.id_mem_of_mem_commitPass hp

end Commit

namespace Session

/-- The numbers of the passes that are called for and not answered. -/
def awaited (s : Session) : List Nat := s.queue.filterMap fun c => c.order?.map Prod.fst

variable {s s' : Session} {now : Instant} {answer : Option (Nat × Answer)}

/-! ## Steps of the first call -/

/-- A step answers the first of the passes, or none. -/
theorem Step.awaited_cases (h : Step now s answer s') :
    (s'.awaited = s.awaited ∧ ∀ ticket result, answer ≠ some (ticket, .pass result)) ∨
      ∃ ticket result, answer = some (ticket, .pass result) ∧ s.awaited = ticket :: s'.awaited := by
  cases h with
  | idle | drained | begun | evaluated => exact .inl ⟨rfl, nofun⟩
  | refused | empty | aborted | committed | broken => exact .inr ⟨_, _, rfl, rfl⟩

/-- A condition fires only in a step that gives an event for it. -/
theorem Step.firings_cases (h : Step now s answer s') (id : String) :
    s'.engine.watchlist.firings id = s.engine.watchlist.firings id ∨
      ∃ ticket events, answer = some (ticket, .pass (.ok events)) ∧
        ∃ event ∈ events, event.conditionId = id := by
  cases h with
  | empty | begun => exact .inl (Watchlist.firings_beginPass _ _ id)
  | aborted => exact .inl (Watchlist.firings_abortPass _ _ id)
  | committed =>
    rcases firings_commitPass id with h | ⟨events, hevents, hfires⟩
    · exact .inl h
    · exact .inr ⟨_, events, by rw [hevents], hfires⟩
  | idle | drained | refused | evaluated | broken => exact .inl rfl

/-- The conditions of events are registered. -/
theorem Step.conditionId_mem (h : Step now s answer s') {ticket : Nat} {events : List Event}
    (hanswer : answer = some (ticket, .pass (.ok events))) :
    ∀ event ∈ events, event.conditionId ∈ s'.engine.watchlist.ids := by
  rw [h.ids_eq]
  cases h with
  | empty =>
    cases hanswer
    nofun
  | committed =>
    rw [Option.some.injEq, Prod.mk.injEq, Answer.pass.injEq] at hanswer
    exact conditionId_mem_of_commitPass hanswer.2
  | idle | drained | refused | begun | aborted | evaluated | broken => cases hanswer

/-- While no pass is awaited, no condition changes. -/
theorem Step.watchlist_eq (h : Step now s answer s') (hawaited : s.awaited = []) :
    s'.engine.watchlist = s.engine.watchlist := by
  cases h with
  | idle | drained => rfl
  | refused | empty | begun | aborted | committed | evaluated | broken => cases hawaited

/-! ## Calls -/

theorem watchlist_start (s : Session) : s.start.engine.watchlist = s.engine.watchlist := by
  unfold start Engine.start
  split <;> rfl

theorem watchlist_requestStop (s : Session) :
    s.requestStop.2.2.engine.watchlist = s.engine.watchlist := by
  unfold requestStop
  split <;> rfl

/-- A stop is not a pass. -/
theorem awaited_requestStop (s : Session) : s.requestStop.2.2.awaited = s.awaited := by
  unfold requestStop
  split
  next =>
    rw [awaited, List.filterMap_append]
    exact List.append_nil _
  next => rfl

theorem watchlist_requestPass (s : Session) (snapshot : Snapshot) :
    (s.requestPass snapshot).2.2.engine.watchlist = s.engine.watchlist := by
  unfold requestPass
  split <;> rfl

/-- A pass that is called for is awaited, or it is turned away at once. -/
theorem requestPass_cases (s : Session) (snapshot : Snapshot) :
    ((s.requestPass snapshot).2.1 = none ∧
        (s.requestPass snapshot).2.2.awaited = s.awaited ++ [(s.requestPass snapshot).1]) ∨
      ((s.requestPass snapshot).2.1 = some (.pass (.error .notRunning)) ∧
        (s.requestPass snapshot).2.2.awaited = s.awaited) := by
  unfold requestPass
  split
  next => exact .inl ⟨rfl, List.filterMap_append⟩
  next => exact .inr ⟨rfl, rfl⟩

end Session

end Engine

end MarketAlerts
