import MarketAlerts.Proofs.Engine.Caller
import MarketAlerts.Proofs.Monitor.Delivering

/-!
# The evaluating side of a run

Whatever else happens in a run, its evaluating side leads the snapshots of the feed through the
engine one after the other, and each pass gives the events that it gives when it is run at once, as
long as the engine is not stopped. The conditions of these events are saved and the batches are put
into the queue in the order of the passes.

- `Evaluating`: how the evaluating side stands;
- `Evaluating.advance`, `Evaluating.stop`: what steps of the engine and stops do to it;
- `Evaluating.evaluate`: what it does itself, and to the dispatching side.
-/

namespace MarketAlerts.Monitor

/-- What the evaluating side of a run works on. -/
structure Session.Front where
  /-- The engine, and the calls for passes and stops. -/
  engine : Engine.Session
  /-- The snapshots to come. -/
  feed : List Snapshot
  /-- What it is about to do. -/
  evaluator : Evaluator
  /-- The number of snapshots so far. -/
  snapshots : Nat
  /-- The number of events so far. -/
  triggered : Nat
  /-- Whether a step of a pass left the range of decimals or dates. -/
  overflowed : Bool

/-- The evaluating side of a run. -/
def Session.front (s : Session) : Front where
  engine := s.engine
  feed := s.feed
  evaluator := s.evaluator
  snapshots := s.outcome.summary.snapshots
  triggered := s.outcome.summary.triggered
  overflowed := s.outcome.overflowed

/-- How much is left to do: the snapshots to come, the stage, and the steps in it. -/
def Session.Front.toGo (k : Front) : Nat × Nat × Nat :=
  match k.evaluator with
  | .waiting _ => (k.feed.length, 4, k.engine.left)
  | .saving _ left => (k.feed.length, 3, left.length)
  | .offering _ => (k.feed.length, 2, 0)
  | .ready => (k.feed.length, 1, 0)
  | .ended => (k.feed.length, 0, 0)

/-- Less is left to do. -/
def Session.Front.Closer (k' k : Front) : Prop :=
  Prod.Lex (· < ·) (Prod.Lex (· < ·) (· < ·)) k'.toGo k.toGo

/-- When the engine makes a step: at the beginning of a pass, or at its end. -/
def Session.passTime (cal : Calendar) (s : Session) : Instant :=
  let n := s.outcome.summary.snapshots - 1
  if s.engine.flight?.isSome then cal.ended n else cal.began n

/-- When the evaluating side makes a step. Only where it saves a condition this matters. -/
def Session.saveTime (cal : Calendar) (s : Session) : Instant :=
  match s.evaluator with
  | .saving batch left => cal.saved (s.outcome.summary.snapshots - 1) (batch.length - left.length)
  | _ => s.passTime cal

/-- The evaluating side does not go on forever. -/
theorem Session.Front.wellFounded_closer : WellFounded Closer :=
  InvImage.wf toGo (Prod.lex Nat.lt_wfRel (Prod.lex Nat.lt_wfRel Nat.lt_wfRel)).wf

/-- With fewer snapshots to come there is less to do. -/
theorem Session.Front.closer_of_feed {k k' : Front} (h : k'.feed.length < k.feed.length) :
    k'.Closer k := by
  have hfst (k : Front) : k.toGo.1 = k.feed.length := by
    unfold toGo
    split <;> rfl
  refine Prod.lex_def.2 (.inl ?_)
  rwa [hfst, hfst]

/-- What the evaluating side has done, and what it has still to do with the snapshots that it took
from the feed. -/
structure Work where
  /-- The snapshots whose passes are over. -/
  done : List Snapshot
  /-- What came of these passes. -/
  passes : Passes
  /-- The snapshot whose pass is not over, or was not admitted. -/
  current : List Snapshot
  /-- The batches that were put into the queue. -/
  offered : List (List Event)
  /-- The batch that was not. -/
  unoffered : List (List Event)
  /-- The conditions that were saved, with the times of the saves. -/
  saved : List (Instant × Condition)
  /-- The events whose conditions were not, with their places in the batch. -/
  unsaved : List (Event × Nat)

/-- How far the evaluating side is with the snapshot that it took last. -/
inductive Stage (cal : Calendar) (p : Passes) (stopped : Bool) (k : Session.Front) :
    (current : List Snapshot) → (unoffered : List (List Event)) →
    (unsaved : List (Event × Nat)) → Prop
  /-- Everything is done with it. -/
  | ready (hevaluator : k.evaluator = .ready) (hengine : k.engine.Rests p.engine stopped) :
    Stage cal p stopped k [] [] []
  /-- There is a call for a pass over it. -/
  | waiting {snapshot : Snapshot} {ticket : Nat} (hevaluator : k.evaluator = .waiting ticket)
    (hengine : k.engine.Flying p.engine (cal.began p.events.length) snapshot ticket stopped) :
    Stage cal p stopped k [snapshot] [] []
  /-- Its pass is over, and conditions are saved. -/
  | saving {batch left : List Event} {place : Nat} (hevaluator : k.evaluator = .saving batch left)
    (hplace : place + left.length = batch.length) (hengine : k.engine.Rests p.engine stopped) :
    Stage cal p stopped k [] [batch] (left.zipIdx place)
  /-- All conditions of its events are saved. -/
  | offering {batch : List Event} (hevaluator : k.evaluator = .offering batch)
    (hengine : k.engine.Rests p.engine stopped) : Stage cal p stopped k [] [batch] []
  /-- There is no more after it. -/
  | exhausted (hevaluator : k.evaluator = .ended) (hengine : k.engine.Rests p.engine stopped)
    (hfeed : k.feed = []) : Stage cal p stopped k [] [] []
  /-- The engine was stopped. -/
  | refused {snapshot : Snapshot} (hevaluator : k.evaluator = .ended) (hstopped : stopped = true) :
    Stage cal p stopped k [snapshot] [] []

section Stage

variable {cal : Calendar} {p : Passes} {stopped : Bool} {k : Session.Front}
  {current : List Snapshot} {unoffered : List (List Event)} {unsaved : List (Event × Nat)}

/-- While no answer is awaited, only stops are done. -/
theorem Stage.resting (h : Stage cal p stopped k current unoffered unsaved)
    (hne : ∀ ticket, k.evaluator ≠ .waiting ticket) (now : Instant) (pick : Nat) :
    Stage cal p stopped { k with engine := (k.engine.advance now pick).2 } current unoffered
      unsaved := by
  cases h with
  | ready hevaluator hengine => exact .ready hevaluator (hengine.advance now pick).1
  | waiting hevaluator hengine => exact absurd hevaluator (hne _)
  | saving hevaluator hplace hengine =>
    exact .saving hevaluator hplace (hengine.advance now pick).1
  | offering hevaluator hengine => exact .offering hevaluator (hengine.advance now pick).1
  | exhausted hevaluator hengine hfeed =>
    exact .exhausted hevaluator (hengine.advance now pick).1 hfeed
  | refused hevaluator hstopped => exact .refused hevaluator hstopped

/-- While an answer is awaited, the pass is under way. -/
theorem Stage.of_waiting (h : Stage cal p stopped k current unoffered unsaved) {ticket : Nat}
    (hwaiting : k.evaluator = .waiting ticket) :
    ∃ snapshot, current = [snapshot] ∧ unoffered = [] ∧ unsaved = [] ∧
      k.engine.Flying p.engine (cal.began p.events.length) snapshot ticket stopped := by
  cases h with
  | waiting hevaluator hengine =>
    cases hevaluator.symm.trans hwaiting
    exact ⟨_, rfl, rfl, rfl, hengine⟩
  | ready hevaluator | saving hevaluator | offering hevaluator | exhausted hevaluator
  | refused hevaluator => cases hevaluator.symm.trans hwaiting

/-- When nothing more happens, there is no more in the feed, or the engine was stopped. -/
theorem Stage.of_ended (h : Stage cal p stopped k current unoffered unsaved)
    (hended : k.evaluator = .ended) :
    unoffered = [] ∧ unsaved = [] ∧
      (current = [] ∧ k.engine.Rests p.engine stopped ∧ k.feed = [] ∨
        stopped = true ∧ ∃ snapshot, current = [snapshot]) := by
  cases h with
  | exhausted _ hengine hfeed => exact ⟨rfl, rfl, .inl ⟨rfl, hengine, hfeed⟩⟩
  | refused _ hstopped => exact ⟨rfl, rfl, .inr ⟨hstopped, _, rfl⟩⟩
  | ready hevaluator | waiting hevaluator | saving hevaluator | offering hevaluator =>
    cases hevaluator.symm.trans hended

end Stage

/-- How the evaluating side stands after this work. -/
structure Evaluating (cal : Calendar) (e : Engine) (feed : List Snapshot) (stopped : Bool)
    (k : Session.Front) (w : Work) : Prop where
  passed : Passed cal e w.done w.passes
  feed : feed = w.done ++ w.current ++ k.feed
  batches : w.passes.batches = w.offered ++ w.unoffered
  saved : w.passes.saved = w.saved ++
    w.passes.engine.conditionsOf (cal.saved (w.passes.events.length - 1)) w.unsaved
  snapshots : k.snapshots = w.done.length + w.current.length
  triggered : k.triggered = w.passes.triggered
  inRange : k.overflowed = false
  stage : Stage cal w.passes stopped k w.current w.unoffered w.unsaved

section Advance

variable {s : Session} {now : Instant} {pick ticket : Nat}

/-- A step of the engine to which nobody waits for an answer. -/
theorem Session.advance_of_ne_waiting (h : ∀ ticket, s.evaluator ≠ .waiting ticket)
    (now : Instant) (pick : Nat) :
    s.advance now pick = { s with engine := (s.engine.advance now pick).2 } := by
  unfold advance
  dsimp only
  split
  next hwaiting _ => exact absurd hwaiting (h _)
  next => rfl

/-- While there is no answer the evaluating side waits. -/
theorem Session.advance_of_none (hevaluator : s.evaluator = .waiting ticket)
    (hanswer : (s.engine.advance now pick).1 = none) :
    s.advance now pick = { s with engine := (s.engine.advance now pick).2 } := by
  simp only [advance, hevaluator, hanswer]

/-- The answer to its call is taken. -/
theorem Session.advance_of_pass (hevaluator : s.evaluator = .waiting ticket)
    {result : Except Engine.Error (List Event)}
    (hanswer : (s.engine.advance now pick).1 = some (ticket, .pass result)) :
    s.advance now pick =
      Session.receive { s with engine := (s.engine.advance now pick).2 } result := by
  simp only [advance, hevaluator, hanswer, if_true]

end Advance

section CallPass

variable {s : Session} {snapshot : Snapshot} {feed : List Snapshot}

/-- The run after a call for a pass that has no answer yet. -/
def Session.called (s : Session) (snapshot : Snapshot) (feed : List Snapshot) : Session :=
  { s with
    engine := (s.engine.requestPass snapshot).2.2
    feed
    evaluator := .waiting (s.engine.requestPass snapshot).1
    outcome.summary.snapshots := s.outcome.summary.snapshots + 1 }

/-- A call that has no answer yet is waited for. -/
theorem Session.callPass_of_none (h : (s.engine.requestPass snapshot).2.1 = none) :
    s.callPass snapshot feed = s.called snapshot feed := by
  simp only [callPass, h]
  rfl

/-- An answer that is there at once is taken. -/
theorem Session.callPass_of_pass {result : Except Engine.Error (List Event)}
    (h : (s.engine.requestPass snapshot).2.1 = some (.pass result)) :
    s.callPass snapshot feed = (s.called snapshot feed).receive result := by
  simp only [callPass, h]
  rfl

end CallPass

/-- A call for a pass takes a snapshot, and does not reach the dispatching side. -/
theorem Session.frame_callPass (s : Session) (snapshot : Snapshot) (feed : List Snapshot) :
    (s.callPass snapshot feed).back = s.back ∧ (s.callPass snapshot feed).feed = feed := by
  unfold callPass
  dsimp only
  split
  next result _ => cases result <;> exact ⟨rfl, rfl⟩
  next => exact ⟨rfl, rfl⟩

/-- A step of the engine does not reach the dispatching side. -/
theorem Session.back_advance (s : Session) (now : Instant) (pick : Nat) :
    (s.advance now pick).back = s.back := by
  unfold advance
  dsimp only
  split
  next ticket answered result _ _ =>
    split
    next => cases result <;> rfl
    next => rfl
  next => rfl

namespace Evaluating

variable {cal : Calendar} {m : Monitor} {feed : List Snapshot} {stopped : Bool} {s : Session}
  {w : Work}

/-- The work at the beginning. -/
theorem start (cal : Calendar) (m : Monitor) (feed : List Snapshot) :
    Evaluating cal m.engine feed false (Session.start m feed).front
      ⟨[], { engine := m.engine }, [], [], [], [], []⟩ where
  passed := .start
  feed := rfl
  batches := rfl
  saved := rfl
  snapshots := rfl
  triggered := rfl
  inRange := rfl
  stage := .ready rfl ⟨rfl, fun c hc => (by cases hc), fun _ => rfl⟩

/-- The engine is stopped. -/
theorem stop (h : Evaluating cal m.engine feed stopped s.front w)
    (hrunning : m.engine.running = true) :
    Evaluating cal m.engine feed true s.stop.front w := by
  have hrunningYet := h.passed.running_eq.trans hrunning
  refine { h with stage := ?_ }
  obtain ⟨done, passes, current, offered, unoffered, saved, unsaved⟩ := w
  have hstage := h.stage
  cases hstage with
  | ready hevaluator hengine => exact .ready hevaluator (hengine.requestStop hrunningYet)
  | waiting hevaluator hengine => exact .waiting hevaluator (hengine.requestStop hrunningYet)
  | saving hevaluator hplace hengine =>
    exact .saving hevaluator hplace (hengine.requestStop hrunningYet)
  | offering hevaluator hengine => exact .offering hevaluator (hengine.requestStop hrunningYet)
  | exhausted hevaluator hengine hfeed =>
    exact .exhausted hevaluator (hengine.requestStop hrunningYet) hfeed
  | refused hevaluator hstopped => exact .refused hevaluator rfl

/-- The pass over the current snapshot gives events. -/
theorem receive {done : List Snapshot} {p : Passes} {snapshot : Snapshot}
    {offered : List (List Event)} {saved : List (Instant × Condition)}
    (h : Evaluating cal m.engine feed stopped s.front
      ⟨done, p, [snapshot], offered, [], saved, []⟩) {events : List Event} {e' : Engine}
    (hpass : p.engine.evaluateBetween (cal.began p.events.length) (cal.ended p.events.length)
      snapshot = (.ok events, e')) {engine : Engine.Session} (hengine : engine.Rests e' stopped) :
    let p' := p.concat (cal.saved p.events.length) events e'
    ∃ unoffered unsaved, Evaluating cal m.engine feed stopped
      (Session.receive { s with engine } (.ok events)).front
      ⟨done ++ [snapshot], p', [], offered, unoffered, saved, unsaved⟩ := by
  intro p'
  have hfeed : feed = done ++ [snapshot] ++ [] ++ s.feed := by
    rw [h.feed, List.append_nil]
    rfl
  have hsnapshots : s.outcome.summary.snapshots = (done ++ [snapshot]).length + 0 := by
    rw [List.length_append]
    exact h.snapshots
  have htriggered : s.outcome.summary.triggered + events.length = p'.triggered := by
    rw [triggered_concat, ← h.triggered]
    rfl
  have hbatches : p.batches = offered := h.batches.trans (List.append_nil _)
  have hsaved : p.saved = saved := h.saved.trans (List.append_nil _)
  have hlast : p'.events.length - 1 = p.events.length := by
    dsimp only [p', Passes.concat]
    rw [List.length_append, List.length_singleton, Nat.add_sub_cancel]
  have hsaved' : p'.saved =
      saved ++ e'.conditionsOf (cal.saved (p'.events.length - 1)) events.zipIdx := by
    rw [hlast, ← hsaved]
    rfl
  cases events with
  | nil =>
    -- there is nothing to save and nothing to offer
    exact ⟨[], [], .next h.passed hpass, hfeed, ((batches_concat_nil p _ e').trans hbatches).trans
      (List.append_nil _).symm, hsaved', hsnapshots, htriggered, h.inRange, .ready rfl hengine⟩
  | cons e events =>
    refine ⟨[e :: events], (e :: events).zipIdx, .next h.passed hpass, hfeed, ?_, hsaved',
      hsnapshots, htriggered, h.inRange, .saving rfl (Nat.zero_add _) hengine⟩
    rw [batches_concat p _ (List.cons_ne_nil e events), hbatches]

/-- The engine makes a step. -/
theorem advance (h : Evaluating cal m.engine feed stopped s.front w)
    (hrunning : m.engine.running = true)
    (hrange : (runOn cal m feed).1.overflowed = false) (pick : Nat) :
    ∃ w', Evaluating cal m.engine feed stopped (s.advance (s.passTime cal) pick).front w' ∧
      w'.offered = w.offered ∧ w'.saved = w.saved ∧
      ((∃ ticket, s.evaluator = .waiting ticket) →
        (s.advance (s.passTime cal) pick).front.Closer s.front) := by
  by_cases hwaiting : ∃ ticket, s.evaluator = .waiting ticket
  swap
  · -- only stops are left to be answered
    have hne (ticket : Nat) : s.evaluator ≠ .waiting ticket := fun hticket =>
      hwaiting ⟨ticket, hticket⟩
    rw [Session.advance_of_ne_waiting hne]
    exact ⟨w, { h with stage := h.stage.resting hne _ pick }, rfl, rfl,
      fun hwaiting' => absurd hwaiting' hwaiting⟩
  obtain ⟨ticket, hticket⟩ := hwaiting
  obtain ⟨done, p, current, offered, unoffered, saved, unsaved⟩ := w
  obtain ⟨snapshot, rfl, rfl, rfl, hengine⟩ := h.stage.of_waiting hticket
  -- the pass of the call is the one after those that are over
  have hcount : s.outcome.summary.snapshots - 1 = p.events.length := by
    have hsnapshots : s.outcome.summary.snapshots = done.length + 1 := h.snapshots
    rw [hsnapshots, h.passed.length_events, Nat.add_sub_cancel]
  have htime : s.passTime cal = if s.engine.flight?.isSome then cal.ended p.events.length
      else cal.began p.events.length := by
    rw [Session.passTime, hcount]
  have hfeed : feed = done ++ snapshot :: s.feed := by
    rw [h.feed, List.append_assoc]
    rfl
  obtain ⟨events, e', hpass⟩ := h.passed.exists_pass hrunning (hfeed ▸ hrange)
  have htoGo : s.front.toGo = (s.feed.length, 4, s.engine.left) := by
    simp [Session.Front.toGo, Session.front, hticket]
  rw [Session.Front.Closer, htoGo]
  cases hengine.advance (h.passed.running_eq.trans hrunning) htime hpass pick with
  | nearer hanswer hflying hless =>
    rw [Session.advance_of_none hticket hanswer]
    refine ⟨_, { h with stage := .waiting hticket hflying }, rfl, rfl, fun _ => ?_⟩
    simp only [Session.Front.toGo, Session.front, hticket]
    exact .right _ (.right _ hless)
  | cancelled hanswer hstopped =>
    rw [Session.advance_of_pass hticket hanswer]
    exact ⟨_, { h with stage := .refused rfl hstopped, inRange := rfl }, rfl, rfl,
      fun _ => .right _ (.left _ _ (by decide))⟩
  | answered hanswer hquiet hrests =>
    rw [Session.advance_of_pass hticket hanswer]
    obtain ⟨unoffered, unsaved, h'⟩ := h.receive hpass (hquiet ▸ hrests)
    refine ⟨_, h', rfl, rfl, fun _ => ?_⟩
    cases events <;> exact .right _ (.left _ _ (by decide))

/-- A pass over the next snapshot is called for; it is refused if the engine was stopped. -/
theorem callPass {done : List Snapshot} {p : Passes} {offered : List (List Event)}
    {saved : List (Instant × Condition)} {snapshot : Snapshot} {rest : List Snapshot}
    (h : Evaluating cal m.engine feed stopped s.front ⟨done, p, [], offered, [], saved, []⟩)
    (hrunning : m.engine.running = true) (hengine : s.engine.Rests p.engine stopped)
    (hrest : s.feed = snapshot :: rest) :
    Evaluating cal m.engine feed stopped (s.callPass snapshot rest).front
      ⟨done, p, [snapshot], offered, [], saved, []⟩ := by
  have hfeed : feed = done ++ [snapshot] ++ rest := by
    rw [h.feed, List.append_nil, List.append_assoc]
    exact congrArg (done ++ ·) hrest
  have hsnapshots : s.outcome.summary.snapshots + 1 = done.length + 1 :=
    congrArg (· + 1) h.snapshots
  rcases hengine.requestPass (h.passed.running_eq.trans hrunning) snapshot
    (cal.began p.events.length) with ⟨hstopped, hanswer⟩ | ⟨hanswer, hflying⟩
  · rw [Session.callPass_of_pass hanswer]
    exact ⟨h.passed, hfeed, h.batches, h.saved, hsnapshots, h.triggered, rfl,
      .refused rfl hstopped⟩
  · rw [Session.callPass_of_none hanswer]
    exact ⟨h.passed, hfeed, h.batches, h.saved, hsnapshots, h.triggered, h.inRange,
      .waiting rfl hflying⟩

/-- The condition of an event is saved. -/
theorem saveCondition {done : List Snapshot} {p : Passes} {offered : List (List Event)}
    {saved : List (Instant × Condition)} {e : Event} {batch left : List Event} {place : Nat}
    (h : Evaluating cal m.engine feed stopped s.front
      ⟨done, p, [], offered, [batch], saved, (e :: left).zipIdx place⟩)
    (hplace : place + (e :: left).length = batch.length)
    (hevaluator : s.evaluator = .saving batch (e :: left))
    (hengine : s.engine.Rests p.engine stopped) :
    let saved' := saved ++ ((p.engine.watchlist.get? e.conditionId).map fun c =>
      (s.saveTime cal, c)).toList
    Evaluating cal m.engine feed stopped
        { s.saveCondition (s.saveTime cal) e with evaluator := .saving batch left }.front
        ⟨done, p, [], offered, [batch], saved', left.zipIdx (place + 1)⟩ ∧
      ∀ d, Dispatching cal d offered saved s.back →
        Dispatching cal d offered saved' (s.saveCondition (s.saveTime cal) e).back := by
  -- the last pass is over, and this is the place of the event in its batch
  have hcount : s.outcome.summary.snapshots = p.events.length :=
    h.snapshots.trans h.passed.length_events.symm
  have htime : s.saveTime cal = cal.saved (p.events.length - 1) place := by
    rw [Session.saveTime, hevaluator, hcount]
    dsimp only
    rw [← hplace, Nat.add_sub_cancel]
  have hsaved := h.saved
  dsimp only at hsaved
  rw [List.zipIdx_cons, Engine.conditionsOf_cons, ← List.append_assoc, ← htime] at hsaved
  have hplace' : place + 1 + left.length = batch.length := by
    rw [← hplace, List.length_cons, Nat.add_right_comm, Nat.add_assoc]
  refine ⟨{ h with saved := hsaved, stage := .saving rfl hplace' hengine }, fun d hd => ?_⟩
  -- a stop does not change the watchlist, so that the condition is the one after the pass
  have hwatchlist : s.engine.engine.watchlist = p.engine.watchlist := by
    rw [hengine.engine, Engine.watchlist_stoppedIf]
  rw [Session.saveCondition, saveCondition_eq, Session.monitor, hwatchlist]
  exact hd.save _

/-- The evaluating side makes a step. -/
theorem evaluate (h : Evaluating cal m.engine feed stopped s.front w)
    (hrunning : m.engine.running = true) :
    ∃ w', Evaluating cal m.engine feed stopped (s.evaluate (s.saveTime cal)).front w' ∧
      (∀ d, Dispatching cal d w.offered w.saved s.back →
        Dispatching cal d w'.offered w'.saved (s.evaluate (s.saveTime cal)).back) ∧
      ((∀ ticket, s.evaluator ≠ .waiting ticket) → s.evaluator ≠ .ended →
        s.queue.length < backlog → (s.evaluate (s.saveTime cal)).front.Closer s.front) := by
  obtain ⟨engine, dispatcher, snapshots, evaluator, queue, dispatching, outcome⟩ := s
  obtain ⟨done, p, current, offered, unoffered, saved, unsaved⟩ := w
  have hstage := h.stage
  cases hstage with
  | ready hevaluator hengine =>
    obtain rfl : evaluator = .ready := hevaluator
    cases snapshots with
    | nil =>
      exact ⟨_, { h with stage := .exhausted rfl hengine rfl }, fun d hd => hd,
        fun _ _ _ => .right _ (.left _ _ (by decide))⟩
    | cons snapshot rest =>
      -- the feed gets shorter, whatever the answer
      refine ⟨_, h.callPass hrunning hengine rfl, fun d hd => ?_,
        fun _ _ _ => Session.Front.closer_of_feed ?_⟩
      · rw [Session.evaluate, (Session.frame_callPass ..).1]
        exact hd
      · change (Session.callPass _ snapshot rest).feed.length < _
        rw [(Session.frame_callPass ..).2]
        exact Nat.lt_succ_self _
  | waiting hevaluator hengine =>
    obtain rfl : evaluator = .waiting _ := hevaluator
    exact ⟨_, h, fun d hd => hd, fun hne => absurd rfl (hne _)⟩
  | @saving batch left place hevaluator hplace hengine =>
    obtain rfl : evaluator = .saving batch left := hevaluator
    cases left with
    | nil =>
      exact ⟨_, { h with stage := .offering rfl hengine }, fun d hd => hd,
        fun _ _ _ => .right _ (.left _ _ (by decide))⟩
    | cons e left =>
      obtain ⟨h', hback⟩ := h.saveCondition hplace rfl hengine
      exact ⟨_, h', hback, fun _ _ _ => .right _ (.right _ (Nat.lt_succ_self _))⟩
  | @offering batch hevaluator hengine =>
    obtain rfl : evaluator = .offering batch := hevaluator
    -- the side waits while the queue is full
    by_cases hroom : queue.length < backlog
    · dsimp only [Session.evaluate]
      rw [if_pos hroom]
      refine ⟨⟨done, p, [], offered ++ [batch], [], saved, []⟩,
        { h with batches := ?_, stage := .ready rfl hengine }, fun d hd => hd.offer batch,
        fun _ _ _ => .right _ (.left _ _ (by decide))⟩
      exact h.batches.trans (List.append_nil _).symm
    · dsimp only [Session.evaluate]
      rw [if_neg hroom]
      exact ⟨_, h, fun d hd => hd, fun _ _ hroom' => absurd hroom' hroom⟩
  | exhausted hevaluator hengine hfeed =>
    obtain rfl : evaluator = .ended := hevaluator
    exact ⟨_, h, fun d hd => hd, fun _ hne => absurd rfl hne⟩
  | refused hevaluator hstopped =>
    obtain rfl : evaluator = .ended := hevaluator
    exact ⟨_, h, fun d hd => hd, fun _ hne => absurd rfl hne⟩

end Evaluating

end MarketAlerts.Monitor
