import MarketAlerts.Proofs.Engine.Isolation
import MarketAlerts.Proofs.Evaluation.Runs

/-!
# The evaluations of one condition

In a course of happenings a condition is evaluated by one pass after the other. Whatever comes in
between, its evaluations are those of the condition alone on the snapshots of these passes: neither
passes over other symbols nor passes that are cancelled or break off have a part in it, nor that the
condition is switched off and on, nor any other condition.

## Main definitions

- `evaluated?`, `evaluations`: the evaluations of a condition that are committed;
- `verdicts`, `readings`, `snapshots`: what comes of them, and the snapshots of their passes;
- `IsNew`, `IsRunOf`: a condition is registered that no pass has taken up, and is not removed in the
  course from then on;
- `Carries`: a condition is registered with a memory, and so the pass in flight has it.

## Main results

- `Carries.happen`: what one happening makes of a condition and its memory;
- `Carries.course`, `IsRunOf.course`: the evaluations and the events of a condition in a course.
-/

namespace MarketAlerts

open Evaluation (Verdict)

/-! ## Conditions with their rules and memories -/

/-- A condition with the rule of `c` remembers `m`. -/
structure PassItem.Holds (c : Condition) (m : Memory) (x : PassItem) : Prop where
  rule : x.condition.rule = c.rule
  memory : x.memory = m

namespace PassItem.Holds

variable {c : Condition} {m : Memory} {x : PassItem}

/-- A condition that is registered remembers nothing. -/
theorem ofCondition (c : Condition) : (PassItem.ofCondition c).Holds c {} := ⟨rfl, rfl⟩

theorem id_eq (h : x.Holds c m) : x.condition.id = c.id :=
  (congrArg Condition.id h.rule : x.condition.rule.id = c.rule.id)

/-- An evaluation depends on the rule and the memory only. -/
theorem evaluate_eq (h : x.Holds c m) (limit : Nat) (s : Snapshot) :
    evaluate limit x.condition x.memory s = evaluate limit c m s := by
  rw [h.memory, ← Evaluation.evaluate_rule, h.rule, Evaluation.evaluate_rule]

/-- To switch a condition leaves its rule and its memory. -/
theorem setActive (h : x.Holds c m) (active : Bool) : (x.setActive active).Holds c m := by
  unfold PassItem.setActive
  split
  · exact h
  · exact ⟨h.rule, h.memory⟩

/-- An edit keeps the rule and the memory of a condition that it does not remove. -/
theorem on (h : x.Holds c m) {d : Watchlist.Edit} (hd : d ≠ .unregister c.id) :
    ∃ y, d.on c.id (some x) = some y ∧ y.Holds c m := by
  cases d with
  | register other => exact ⟨x, by simp [Watchlist.Edit.on], h⟩
  | unregister id =>
    have hne : id ≠ c.id := fun hid => hd (by rw [hid])
    exact ⟨x, by simp [Watchlist.Edit.on, hne], h⟩
  | setActive id active =>
    rw [Watchlist.Edit.on]
    split
    · exact ⟨_, rfl, h.setActive active⟩
    · exact ⟨x, rfl, h⟩

end PassItem.Holds

namespace Watch

variable {c : Condition} {m : Memory} {w : Watch}

theorem holds_begin (h : w.item.Holds c m) : w.begin.item.Holds c m := ⟨h.rule, h.memory⟩

theorem holds_abort (h : w.item.Holds c m) : w.abort.item.Holds c m := by
  unfold abort
  split
  · exact ⟨h.rule, h.memory⟩
  · exact h

/-- An outcome that is applied leaves the memory of its evaluation. -/
theorem holds_apply (h : w.item.Holds c m) {y : PassItem} (hy : y.Holds c m) (limit : Nat)
    (s : Snapshot) (now : Instant) (next : Option Instant) :
    (w.apply now next (y.outcome limit s)).item.Holds c
      (Verdict.memory m (evaluate limit c m s)) := by
  cases heval : evaluate limit c m s with
  | error e =>
    rw [PassItem.outcome_of_error ((hy.evaluate_eq limit s).trans heval)]
    exact ⟨h.rule, h.memory⟩
  | ok result =>
    obtain ⟨reading, memory⟩ := result
    rw [PassItem.outcome_of_ok ((hy.evaluate_eq limit s).trans heval)]
    exact ⟨h.rule, rfl⟩

end Watch

namespace Watchlist

variable {l : Watchlist} {id : String}

/-- The beginning of a pass leaves the rule and the memory of a condition. -/
theorem item?_beginPass_of_holds {c : Condition} {m : Memory} (symbol : String)
    (h : ∃ x, l.item? c.id = some x ∧ x.Holds c m) :
    ∃ x, (l.beginPass symbol).2.item? c.id = some x ∧ x.Holds c m := by
  obtain ⟨x, hx, hholds⟩ := h
  obtain ⟨w, hw, rfl⟩ := Option.map_eq_some_iff.1 hx
  refine ⟨(markFor symbol w).item, by rw [item?, watch?_beginPass, hw]; rfl, ?_⟩
  unfold markFor
  split
  · exact Watch.holds_begin hholds
  · exact hholds

/-- The cancellation of a pass leaves the rule and the memory of a condition. -/
theorem item?_abortPass_of_holds {c : Condition} {m : Memory} (ids : List String)
    (h : ∃ x, l.item? c.id = some x ∧ x.Holds c m) :
    ∃ x, (l.abortPass ids).item? c.id = some x ∧ x.Holds c m := by
  obtain ⟨x, hx, hholds⟩ := h
  obtain ⟨w, hw, rfl⟩ := Option.map_eq_some_iff.1 hx
  refine ⟨(if ids.contains w.id then w.abort else w).item, ?_, ?_⟩
  · rw [item?, abortPass, watch?_map l fun v => id_ite Watch.id_abort _ v, hw]
    rfl
  · split
    · exact Watch.holds_abort hholds
    · exact hholds

/-- What a pass takes up is what is registered. -/
theorem holds_of_mem_beginPass {c : Condition} {m : Memory} (hnodup : l.ids.Nodup)
    {symbol : String} (h : ∃ x, l.item? c.id = some x ∧ x.Holds c m) {y : PassItem}
    (hy : y ∈ (l.beginPass symbol).1) (hid : y.condition.id = c.id) : y.Holds c m := by
  obtain ⟨x, hx, hholds⟩ := h
  obtain ⟨w, hw, -, rfl⟩ := (mem_beginPass_iff hnodup).1 hy
  rw [hid] at hw
  rw [item?, hw, Option.map_some, Option.some.injEq] at hx
  exact Watch.holds_begin (hx ▸ hholds)

/-! ## The commit of one condition -/

/-- The condition with an identifier among those that a pass took up, if it is still active. -/
def takenUp? (l : Watchlist) (items : List PassItem) (id : String) : Option PassItem :=
  if (l.get? id).any (·.active) then items.find? fun x => x.condition.id = id else none

/-- What was taken up is one of the conditions of the pass, under its identifier. -/
theorem mem_of_takenUp? {items : List PassItem} {y : PassItem}
    (h : l.takenUp? items id = some y) : y ∈ items ∧ y.condition.id = id := by
  unfold takenUp? at h
  split at h
  · exact ⟨List.mem_of_find?_eq_some h, by simpa using List.find?_some h⟩
  · cases h

section Commit

variable {items : List PassItem} {limit : Nat} {s : Snapshot} {now : Instant}
  {next : Option Instant} {c : Condition} {m : Memory} (hnodup : l.ids.Nodup)
  (hids : (items.map (·.condition.id)).Nodup)
  (hholds : ∀ y ∈ items, y.condition.id = c.id → y.Holds c m)

/-- What is given back of an active condition is the reading of its evaluation. -/
theorem map_reported? {w : Watch} (hw : l.watch? c.id = some w)
    (hactive : w.condition.active = true) {y : PassItem} (hy : y.Holds c m) :
    ((l.reported? now next (y.outcome limit s)).toList.map (·.2)).filter (·.satisfied) =
      (Verdict.reading? c (evaluate limit c m s)).toList.filter (·.satisfied) := by
  have hsame := hy.evaluate_eq limit s
  cases heval : evaluate limit c m s with
  | error e =>
    rw [PassItem.outcome_of_error (hsame.trans heval)]
    rfl
  | ok result =>
    obtain ⟨reading, memory⟩ := result
    have hid : reading.conditionId = c.id := conditionId_of_evaluate heval
    rw [PassItem.outcome_of_ok (hsame.trans heval), Evaluation.filter_reading?, reported?,
      Outcome.conditionId, hid, hw, Option.filter_some, if_pos hactive]
    rfl

/-- Of a condition that was switched off since nothing is given back. -/
theorem reported?_of_inactive {w : Watch} (hw : l.watch? c.id = some w)
    (hactive : w.condition.active = false) {y : PassItem} (hy : y.condition.id = c.id) :
    l.reported? now next (y.outcome limit s) = none := by
  have hid : (y.outcome limit s).conditionId = c.id := (y.conditionId_outcome limit s).trans hy
  unfold reported?
  split
  next => simp [hid, hw, hactive]
  next => rfl

include hids

theorem nodup_map_outcome :
    ((items.map (PassItem.outcome limit s)).map Outcome.conditionId).Nodup := by
  simpa [Function.comp_def] using hids

include hnodup hholds

/-- A commit hands the memory of the evaluation on, if the condition was taken up and is active. -/
theorem item?_commitPass_of_holds (hitem : ∃ x, l.item? c.id = some x ∧ x.Holds c m) :
    ∃ x, (l.commitPass now next (items.map (PassItem.outcome limit s))).2.item? c.id = some x ∧
      x.Holds c (match l.takenUp? items c.id with
        | none => m
        | some _ => Verdict.memory m (evaluate limit c m s)) := by
  obtain ⟨x, hx, hxholds⟩ := hitem
  obtain ⟨w, hw, rfl⟩ := Option.map_eq_some_iff.1 hx
  have hactive : (l.get? c.id).any (·.active) = w.condition.active := by simp [get?, hw]
  rw [takenUp?, hactive]
  cases hfind : items.find? fun y => y.condition.id = c.id with
  | none =>
    have hid : c.id ∉ (items.map (PassItem.outcome limit s)).map Outcome.conditionId := by
      simpa using hfind
    refine ⟨w.item, by rw [item?, watch?_commitPass_of_notMem hnodup hid, hw]; rfl, ?_⟩
    rwa [ite_self]
  | some y =>
    have hmem := List.mem_of_find?_eq_some hfind
    have hyid : y.condition.id = c.id := by simpa using List.find?_some hfind
    have hcommit : (l.commitPass now next (items.map (PassItem.outcome limit s))).2.watch? _ = _ :=
      watch?_commitPass_of_mem hnodup (nodup_map_outcome hids) (List.mem_map_of_mem hmem)
    rw [PassItem.conditionId_outcome, hyid, hw] at hcommit
    refine ⟨_, by rw [item?, hcommit]; rfl, ?_⟩
    rw [Watch.applyIfActive]
    -- what was switched off meanwhile is left as it is
    cases w.condition.active with
    | true => exact Watch.holds_apply hxholds (hholds y hmem hyid) limit s now next
    | false => exact hxholds

/-- What a commit gives back is the reading of the evaluation. -/
theorem readings_commitPass_of_holds (hitem : ∃ x, l.item? c.id = some x ∧ x.Holds c m) :
    (((l.commitPass now next (items.map (PassItem.outcome limit s))).1.filter
        fun p => p.1.id = c.id).map (·.2)).filter (·.satisfied) =
      match l.takenUp? items c.id with
      | none => []
      | some _ => (Verdict.reading? c (evaluate limit c m s)).toList.filter (·.satisfied) := by
  obtain ⟨x, hx, -⟩ := hitem
  obtain ⟨w, hw, -⟩ := Option.map_eq_some_iff.1 hx
  have hactive : (l.get? c.id).any (·.active) = w.condition.active := by simp [get?, hw]
  have hid : (fun o : Outcome => decide (o.conditionId = c.id)) ∘ PassItem.outcome limit s =
      fun y => decide (y.condition.id = c.id) := by
    funext y
    simp
  rw [filter_commitPass_fst hnodup (nodup_map_outcome hids), List.find?_map, hid, takenUp?, hactive]
  cases hfind : items.find? fun y => y.condition.id = c.id with
  | none =>
    rw [ite_self]
    rfl
  | some y =>
    have hyid : y.condition.id = c.id := by simpa using List.find?_some hfind
    rw [Option.map_some, Option.bind_some]
    cases hon : w.condition.active with
    | true => exact map_reported? hw hon (hholds y (List.mem_of_find?_eq_some hfind) hyid)
    | false =>
      rw [reported?_of_inactive hw hon hyid]
      rfl

end Commit

end Watchlist

/-! ## Evaluations in a course -/

namespace Engine

/-- A condition as a pass took it up, and what it was evaluated on. -/
structure Evaluated where
  /-- The condition. -/
  item : PassItem
  /-- The snapshot of the pass. -/
  snapshot : Snapshot

/-- What comes of the evaluation. -/
def Evaluated.verdict (limit : Nat) (x : Evaluated) : Verdict :=
  evaluate limit x.item.condition x.item.memory x.snapshot

namespace Session

/-- The evaluation of the condition with an identifier in the pass of the first call, if the call
is answered with its events and the condition is still active. -/
def evaluated? (id : String) (s : Session) (answer : Option (Nat × Answer)) : Option Evaluated :=
  match answer, s.queue.head? with
  | some (_, .pass (.ok _)), some (.pass _ _ snapshot (some f)) =>
    (s.engine.watchlist.takenUp? f.items id).map fun x => ⟨x, snapshot⟩
  | _, _ => none

/-- The evaluations of the condition with an identifier in a course of happenings. -/
def evaluations (id : String) (s : Session) : List (Instant × Happening) → List Evaluated
  | [] => []
  | (now, x) :: rest =>
    (s.evaluated? id (s.happen now x).1).toList ++ (s.happen now x).2.evaluations id rest

/-- The snapshots of these evaluations. -/
def snapshots (id : String) (s : Session) (steps : List (Instant × Happening)) : List Snapshot :=
  (s.evaluations id steps).map (·.snapshot)

/-- What comes of these evaluations. -/
def verdicts (id : String) (s : Session) (steps : List (Instant × Happening)) : List Verdict :=
  (s.evaluations id steps).map (Evaluated.verdict s.engine.settings.historyLimit)

/-- The readings with values among them. -/
def readings (c : Condition) (s : Session) (steps : List (Instant × Happening)) : List Reading :=
  (s.verdicts c.id steps).filterMap (Verdict.reading? c)

/-- The sessions that come about in courses of happenings. At first there are no calls. -/
def Reachable (s : Session) : Prop :=
  ∃ (e : Engine) (n : Nat) (steps : List (Instant × Happening)), e.watchlist.Reachable ∧
    s = ((Session.mk e [] n).course steps).2

/-- A condition is registered and nothing has become of it yet, and the pass in flight has taken up
no other one under its identifier. -/
structure IsNew (c : Condition) (s : Session) : Prop where
  item : s.engine.watchlist.item? c.id = some (.ofCondition c)
  flight : ∀ f, s.flight? = some f → c.id ∉ f.ids

/-- A course from the registration of a condition on in which it is not removed. -/
structure IsRunOf (c : Condition) (s : Session) (steps : List (Instant × Happening)) : Prop where
  reachable : s.Reachable
  isNew : s.IsNew c
  kept : ∀ step ∈ steps, step.2 ≠ .edit (.unregister c.id)

/-- A call for a pass over a price of BTCUSDT. -/
def passOver (price : Int64) : Happening :=
  .act (.pass ((Quote.ofPrice "BTCUSDT" (.ofInt64 price)).atTime ⟨0, 0⟩))

/-- Steps of the first call. -/
def advances (count : Nat) : List Happening := List.replicate count (.act (.advance 0))

/-- Happenings at one time. -/
def atOnce (happenings : List Happening) : List (Instant × Happening) :=
  happenings.map fun x => (⟨0, 0⟩, x)

/-! ## What every session has -/

/-- Identifiers are distinct, only the first call can be in flight, and its results are outcomes of
its conditions. -/
structure IsSound (s : Session) : Prop where
  nodup : s.engine.watchlist.ids.Nodup
  waiting : ∀ call ∈ s.queue.tail, call.flight? = none
  flight : ∀ (ticket start : Nat) (snapshot : Snapshot) (f : Flight),
    s.queue.head? = some (.pass ticket start snapshot (some f)) →
    f.Records s.engine.settings snapshot ∧ f.ids.Nodup

section IsSound

variable {s s' : Session} {now : Instant} {answer : Option (Nat × Answer)}

/-- Without a pass in flight only the identifiers matter. -/
theorem isSound_of_waiting {e : Engine} {rest : List Call} {n : Nat}
    (hnodup : e.watchlist.ids.Nodup) (hrest : ∀ call ∈ rest, call.flight? = none) :
    IsSound ⟨e, rest, n⟩ where
  nodup := hnodup
  waiting call hcall := hrest call (List.mem_of_mem_tail hcall)
  flight ticket start snapshot f hhead := by
    cases hrest _ (List.mem_of_mem_head? hhead)

theorem ids_engine_commitPass (e : Engine) (context : PassContext) (now : Instant)
    (os : List Outcome) : (e.commitPass context now os).2.watchlist.ids = e.watchlist.ids := by
  unfold commitPass
  split
  next => rfl
  next => exact Watchlist.ids_commitPass _ os

theorem settings_engine_commitPass (e : Engine) (context : PassContext) (now : Instant)
    (os : List Outcome) : (e.commitPass context now os).2.settings = e.settings := by
  unfold commitPass
  split <;> rfl

theorem Step.settings_eq (h : Step now s answer s') :
    s'.engine.settings = s.engine.settings := by
  cases h with
  | committed => exact settings_engine_commitPass _ _ now _
  | idle | drained | refused | empty | begun | aborted | evaluated | broken => rfl

theorem settings_happen (s : Session) (now : Instant) (x : Happening) :
    (s.happen now x).2.engine.settings = s.engine.settings := by
  cases x with
  | edit d => rfl
  | act a => exact (requested_or_step s now a).elim (·.settings) (·.settings_eq)

/-- A step leaves a session sound. -/
theorem IsSound.step (h : IsSound s) (hstep : Step now s answer s') : IsSound s' := by
  cases hstep with
  | idle => exact h
  | drained => exact isSound_of_waiting h.nodup h.waiting
  | refused => exact isSound_of_waiting h.nodup h.waiting
  | empty => exact isSound_of_waiting (by simpa [beginPass] using h.nodup) h.waiting
  | begun =>
    refine ⟨by simpa [beginPass] using h.nodup, h.waiting, ?_⟩
    rintro ticket start snapshot f ⟨⟩
    exact ⟨Flight.records_ofItems _ _, h.nodup.sublist (Watchlist.beginPass_sublist _ _)⟩
  | aborted => exact isSound_of_waiting (by simpa using h.nodup) h.waiting
  | committed =>
    exact isSound_of_waiting (by rw [ids_engine_commitPass]; exact h.nodup) h.waiting
  | evaluated hcancelled hi hitem houtcome =>
    refine ⟨h.nodup, h.waiting, ?_⟩
    rintro ticket start snapshot f ⟨⟩
    obtain ⟨hrecords, hids⟩ := h.flight _ _ _ _ rfl
    exact ⟨hrecords.set hitem houtcome, hids⟩
  | broken => exact isSound_of_waiting h.nodup h.waiting

/-- A call leaves a session sound. -/
theorem IsSound.requested (h : IsSound s) (hrequested : Requested s answer s') : IsSound s' where
  nodup := by rw [hrequested.watchlist]; exact h.nodup
  waiting := hrequested.waiting h.waiting
  flight ticket start snapshot f hhead := by
    rw [hrequested.settings]
    exact h.flight ticket start snapshot f (hrequested.head?_eq hhead rfl)

/-- Whatever happens leaves a session sound. -/
theorem IsSound.happen (h : IsSound s) (now : Instant) (x : Happening) :
    IsSound (s.happen now x).2 := by
  cases x with
  | edit d => exact ⟨Watchlist.nodup_ids_edit h.nodup d, h.waiting, h.flight⟩
  | act a => exact (requested_or_step s now a).elim h.requested h.step

/-- Any course leaves a session sound. -/
theorem IsSound.course (h : IsSound s) (steps : List (Instant × Happening)) :
    IsSound (s.course steps).2 := by
  induction steps generalizing s with
  | nil => exact h
  | cons step steps ih => exact ih (h.happen step.1 step.2)

/-- Every session that can be reached is sound. -/
theorem Reachable.isSound (h : s.Reachable) : IsSound s := by
  obtain ⟨e, n, steps, he, rfl⟩ := h
  exact (isSound_of_waiting he.nodup fun call hcall => nomatch List.not_mem_nil hcall).course steps

end IsSound

/-! ## One condition -/

/-- A condition is registered with its rule and the memory `m`, and so the pass in flight has taken
it up, if it has. -/
structure Carries (c : Condition) (m : Memory) (s : Session) : Prop extends IsSound s where
  item : ∃ x, s.engine.watchlist.item? c.id = some x ∧ x.Holds c m
  taken : ∀ f, s.flight? = some f → ∀ x ∈ f.items, x.condition.id = c.id → x.Holds c m

/-- What a happening makes of the memory of a condition is what its evaluation makes of it, if there
is one, and the events tell of the same reading. -/
def Attests (c : Condition) (m m' : Memory) (limit : Nat) (answer : Option (Nat × Answer)) :
    Option Evaluated → Prop
  | none => m' = m ∧ eventsOf c.id answer.toList = []
  | some x =>
    x.item.Holds c m ∧ m' = Verdict.memory m (evaluate limit c m x.snapshot) ∧
      (eventsOf c.id answer.toList).map (·.reading) =
        (Verdict.reading? c (evaluate limit c m x.snapshot)).toList.filter (·.satisfied)

section Carries

variable {c : Condition} {m : Memory} {s s' : Session} {now : Instant}
  {answer : Option (Nat × Answer)}

/-- A new condition is carried with an empty memory. -/
theorem IsNew.carries (hs : s.Reachable) (h : s.IsNew c) : Carries c {} s where
  toIsSound := hs.isSound
  item := ⟨_, h.item, .ofCondition c⟩
  taken f hf x hx hid := absurd (List.mem_map.2 ⟨x, hx, hid⟩) (h.flight f hf)

/-- Without a pass in flight a condition is carried that is registered with its rule. -/
theorem carries_of_waiting {e : Engine} {rest : List Call} {n : Nat}
    (hnodup : e.watchlist.ids.Nodup)
    (hitem : ∃ x, e.watchlist.item? c.id = some x ∧ x.Holds c m)
    (hrest : ∀ call ∈ rest, call.flight? = none) : Carries c m ⟨e, rest, n⟩ where
  toIsSound := isSound_of_waiting hnodup hrest
  item := hitem
  taken f hf := by
    obtain ⟨call, hhead, hflight⟩ := Option.bind_eq_some_iff.1 hf
    cases (hrest call (List.mem_of_mem_head? hhead)).symm.trans hflight

/-- Without an evaluation nothing becomes of the memory. -/
theorem attests_none (c : Condition) (m : Memory) (limit : Nat)
    (hanswer : ∀ a ∈ answer, a.2.events = []) : Attests c m m limit answer none := by
  refine ⟨rfl, ?_⟩
  cases answer with
  | none => rfl
  | some a =>
    have hevents : a.2.events = [] := hanswer a rfl
    simp [eventsOf, hevents]

/-- The readings of the events that a commit emits. -/
theorem map_reading_eventsOf_emit (ticket : Nat) (context : PassContext) (now : Instant)
    (supply : Uuid.Supply) (readings : List (Condition × Reading)) (id : String) :
    (eventsOf id [(ticket, .pass (.ok (emit context now supply readings).1))]).map (·.reading) =
      ((readings.filter fun p => p.1.id = id).map (·.2)).filter (·.satisfied) := by
  rw [eventsOf, List.flatMap_singleton, Answer.events, Watchlist.filter_emit, List.map_map,
    List.filter_map]
  rfl

section Commit

variable {e : Engine} {n ticket start : Nat} {snapshot : Snapshot} {rest : List Call} {f : Flight}

/-- A commit hands the memory of its evaluation on, if the condition was evaluated and is active. -/
theorem Carries.committed
    (h : Carries c m ⟨e, .pass ticket start snapshot (some f) :: rest, n⟩)
    (hpending : f.pending = []) :
    let s : Session := ⟨e, .pass ticket start snapshot (some f) :: rest, n⟩
    let answer := some (ticket, Answer.pass (e.commitPass f.context now f.outcomes).1)
    ∃ m', Carries c m' ⟨(e.commitPass f.context now f.outcomes).2, rest, n⟩ ∧
      Attests c m m' e.settings.historyLimit answer (s.evaluated? c.id answer) := by
  intro s answer
  obtain ⟨hrecords, hids⟩ := h.flight _ _ _ _ rfl
  have hholds := h.taken f rfl
  cases hdue : dueAt? e.settings.interval now with
  | none =>
    -- the pass breaks off at its very end, and nothing is committed
    have hcommit : e.commitPass f.context now f.outcomes = (.error .overflow, e) := by
      rw [commitPass, hdue]
    simp only [answer, hcommit]
    exact ⟨m, carries_of_waiting h.nodup h.item h.waiting, attests_none c m _ (by rintro a ⟨⟩; rfl)⟩
  | some next =>
    let os := f.items.map (PassItem.outcome e.settings.historyLimit snapshot)
    have hitem : ∃ x, (e.watchlist.commitPass now next os).2.item? c.id = some x ∧ _ :=
      Watchlist.item?_commitPass_of_holds h.nodup hids hholds h.item
    have hreadings : (((e.watchlist.commitPass now next os).1.filter
        fun p => p.1.id = c.id).map (·.2)).filter (·.satisfied) = _ :=
      Watchlist.readings_commitPass_of_holds h.nodup hids hholds h.item
    have hcommit : e.commitPass f.context now f.outcomes =
        (.ok (emit f.context now e.supply (e.watchlist.commitPass now next os).1).1, { e with
          watchlist := (e.watchlist.commitPass now next os).2
          supply := (emit f.context now e.supply (e.watchlist.commitPass now next os).1).2 }) := by
      rw [commitPass, hdue, hrecords.outcomes_eq hpending]
    simp only [answer, hcommit]
    refine ⟨_, carries_of_waiting (by simpa using h.nodup) hitem h.waiting, ?_⟩
    rw [← map_reading_eventsOf_emit ticket f.context now e.supply] at hreadings
    have hevaluated : s.evaluated? c.id (some (ticket, .pass (.ok (emit f.context now e.supply
        (e.watchlist.commitPass now next os).1).1))) =
          (e.watchlist.takenUp? f.items c.id).map fun x => ⟨x, snapshot⟩ := rfl
    rw [hevaluated]
    cases htaken : e.watchlist.takenUp? f.items c.id with
    | none =>
      rw [htaken] at hreadings
      exact ⟨rfl, List.map_eq_nil_iff.1 hreadings⟩
    | some y =>
      rw [htaken] at hreadings
      obtain ⟨hmem, hid⟩ := Watchlist.mem_of_takenUp? htaken
      exact ⟨hholds y hmem hid, rfl, hreadings⟩

end Commit

/-- What a step of the first call makes of a condition. -/
theorem Carries.step (h : Carries c m s) (hstep : Step now s answer s') :
    ∃ m', Carries c m' s' ∧
      Attests c m m' s.engine.settings.historyLimit answer (s.evaluated? c.id answer) := by
  have hsound := h.toIsSound.step hstep
  cases hstep with
  | idle => exact ⟨m, h, attests_none c m _ nofun⟩
  | drained | refused | broken =>
    exact ⟨m, carries_of_waiting h.nodup h.item h.waiting, attests_none c m _ (by rintro a ⟨⟩; rfl)⟩
  | empty =>
    exact ⟨m, carries_of_waiting hsound.nodup (Watchlist.item?_beginPass_of_holds _ h.item)
      h.waiting, attests_none c m _ (by rintro a ⟨⟩; rfl)⟩
  | begun =>
    refine ⟨m, ⟨hsound, Watchlist.item?_beginPass_of_holds _ h.item, ?_⟩, attests_none c m _ nofun⟩
    rintro f ⟨⟩ x hx hid
    exact Watchlist.holds_of_mem_beginPass h.nodup h.item hx hid
  | aborted =>
    exact ⟨m, carries_of_waiting hsound.nodup (Watchlist.item?_abortPass_of_holds _ h.item)
      h.waiting, attests_none c m _ (by rintro a ⟨⟩; rfl)⟩
  | committed hcancelled hpending => exact h.committed hpending
  | evaluated =>
    refine ⟨m, ⟨hsound, h.item, ?_⟩, attests_none c m _ nofun⟩
    rintro f ⟨⟩ x hx hid
    exact h.taken _ rfl x hx hid

/-- What is called for has nothing to do with any condition. -/
theorem Carries.requested (h : Carries c m s) (hrequested : Requested s answer s') :
    Carries c m s' ∧
      Attests c m m s.engine.settings.historyLimit answer (s.evaluated? c.id answer) := by
  refine ⟨⟨h.toIsSound.requested hrequested, ?_, ?_⟩, ?_⟩
  · rw [hrequested.watchlist]
    exact h.item
  · rw [hrequested.flight?_eq]
    exact h.taken
  · have hevents : ∀ a ∈ answer, a.2.events = [] := fun a ha => by
      rcases hrequested.answer a ha with ha | ha <;> rw [ha] <;> rfl
    have hevaluated : s.evaluated? c.id answer = none := by
      cases answer with
      | none => rfl
      | some a =>
        obtain ⟨ticket, answer⟩ := a
        rcases hrequested.answer _ rfl with ha | ha <;> cases ha <;> rfl
    rw [hevaluated]
    exact attests_none c m _ hevents

/-- What a happening makes of a condition that it does not remove. -/
theorem Carries.happen (h : Carries c m s) (now : Instant) {x : Happening}
    (hx : x ≠ .edit (.unregister c.id)) :
    ∃ m', Carries c m' (s.happen now x).2 ∧ Attests c m m' s.engine.settings.historyLimit
      (s.happen now x).1 (s.evaluated? c.id (s.happen now x).1) := by
  cases x with
  | edit d =>
    obtain ⟨y, hy, hholds⟩ := h.item
    obtain ⟨z, hz, hzholds⟩ := hholds.on fun hd => hx (congrArg _ hd)
    refine ⟨m, ⟨h.toIsSound.happen now (.edit d), ⟨z, ?_, hzholds⟩, h.taken⟩,
      attests_none c m _ nofun⟩
    rw [← hz, ← hy]
    exact Watchlist.item?_edit _ d c.id
  | act a =>
    rcases requested_or_step s now a with hrequested | hstep
    · exact ⟨m, h.requested hrequested⟩
    · exact h.step hstep

/-- The verdicts of a course are those of its first step and those of the rest. -/
theorem verdicts_cons (id : String) (s : Session) (now : Instant) (x : Happening)
    (steps : List (Instant × Happening)) : s.verdicts id ((now, x) :: steps) =
      (s.evaluated? id (s.happen now x).1).toList.map
          (Evaluated.verdict s.engine.settings.historyLimit) ++
        (s.happen now x).2.verdicts id steps := by
  rw [verdicts, evaluations, List.map_append, verdicts, settings_happen]

/-- The snapshots that are evaluated in a course are that of its first step, if there is one, and
those of the rest. -/
theorem snapshots_cons (id : String) (s : Session) (now : Instant) (x : Happening)
    (steps : List (Instant × Happening)) : s.snapshots id ((now, x) :: steps) =
      (s.evaluated? id (s.happen now x).1).toList.map (·.snapshot) ++
        (s.happen now x).2.snapshots id steps := by
  rw [snapshots, evaluations, List.map_append, snapshots]

/-- In a course in which a condition is not removed, its evaluations are those of the condition
alone on the snapshots of their passes, and its events tell of the readings that are satisfied. -/
theorem Carries.course (h : Carries c m s) {steps : List (Instant × Happening)}
    (hsteps : ∀ step ∈ steps, step.2 ≠ .edit (.unregister c.id)) :
    s.verdicts c.id steps =
        Evaluation.verdicts s.engine.settings.historyLimit c m (s.snapshots c.id steps) ∧
      (eventsOf c.id (s.course steps).1).map (·.reading) =
        (Evaluation.readings s.engine.settings.historyLimit c m
          (s.snapshots c.id steps)).filter (·.satisfied) := by
  induction steps generalizing s m with
  | nil => exact ⟨rfl, rfl⟩
  | cons step steps ih =>
    obtain ⟨now, x⟩ := step
    rw [List.forall_mem_cons] at hsteps
    -- the rest of the course goes on from the memory that the first happening leaves
    obtain ⟨m', hcarries, hattests⟩ := h.happen now hsteps.1
    obtain ⟨hverdicts, hevents⟩ := ih hcarries hsteps.2
    rw [settings_happen] at hverdicts hevents
    rw [verdicts_cons, snapshots_cons, Session.course]
    dsimp only at hverdicts hevents ⊢
    rw [eventsOf_append, List.map_append, hevents, hverdicts]
    cases hevaluated : s.evaluated? c.id (s.happen now x).1 with
    | none =>
      rw [hevaluated] at hattests
      obtain ⟨rfl, hnone⟩ := hattests
      rw [hnone]
      exact ⟨rfl, rfl⟩
    | some y =>
      rw [hevaluated] at hattests
      obtain ⟨hholds, rfl, hfired⟩ := hattests
      constructor
      · rw [Option.toList_some, List.map_singleton, List.map_singleton, List.singleton_append,
          List.singleton_append, Evaluation.verdicts, Evaluated.verdict, hholds.evaluate_eq]
      · rw [hfired, Option.toList_some, List.map_singleton, List.singleton_append,
          Evaluation.readings_cons, List.filter_append]

/-- From its registration on, the evaluations of a condition start without a memory. -/
theorem IsRunOf.course {steps : List (Instant × Happening)} (h : s.IsRunOf c steps) :
    s.verdicts c.id steps =
        Evaluation.verdicts s.engine.settings.historyLimit c {} (s.snapshots c.id steps) ∧
      (eventsOf c.id (s.course steps).1).map (·.reading) =
        (Evaluation.readings s.engine.settings.historyLimit c {}
          (s.snapshots c.id steps)).filter (·.satisfied) :=
  (h.isNew.carries h.reachable).course h.kept

end Carries

end Session

end Engine

end MarketAlerts
