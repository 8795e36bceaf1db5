import MarketAlerts.Proofs.Engine.Strategies
import MarketAlerts.Proofs.Monitor.Evaluating

/-!
# Side by side as one after the other

A run in which evaluation and delivery go on side by side comes to what the run comes to that leads
one snapshot after the other through both.

- `Stands.move`, `Stands.stop`: what one step of a run preserves;
- `Stands.exists_isOver`: a run can always be brought to its end;
- `follow_isOver`: what it has come to then.
-/

namespace MarketAlerts.Monitor

/-- A step of a run on a calendar. -/
inductive Move where
  /-- The evaluating side does what it is about to do. -/
  | evaluate
  /-- The first call to the engine makes its next step. -/
  | advance (pick : Nat)
  /-- The engine is stopped. -/
  | stop
  /-- The dispatching side takes the next batch. -/
  | take
  /-- A lane makes its next step. -/
  | deliver (lane : Nat)
  /-- The dispatching side takes a report. -/
  | report
deriving DecidableEq

namespace Session

/-- The run after a step, which happens when the calendar says so. -/
def moved (cal : Calendar) (s : Session) : Move → Session
  | .evaluate => s.apply (s.saveTime cal) .evaluate
  | .advance pick => s.apply (s.passTime cal) (.advance pick)
  | .stop => s.apply (s.passTime cal) .stop
  | .take => s.apply (s.passTime cal) .take
  | .deliver lane =>
    s.apply (s.occasion cal lane).now (.deliver lane (s.occasion cal lane).world)
  | .report => s.apply (s.passTime cal) (.report (cal.filed s.outcome.reports.length))

/-- The run after these steps. -/
def follow (cal : Calendar) (s : Session) (moves : List Move) : Session :=
  moves.foldl (moved cal) s

theorem follow_append (cal : Calendar) (s : Session) (moves moves' : List Move) :
    s.follow cal (moves ++ moves') = (s.follow cal moves).follow cal moves' :=
  List.foldl_append

theorem front_take (s : Session) : s.take.front = s.front := by
  unfold take
  split <;> rfl

theorem front_deliver (s : Session) (now : Instant) (lane : Nat) (w : World) :
    (s.deliver now lane w).front = s.front := by
  unfold deliver
  split <;> rfl

theorem front_takeReport (s : Session) (filed : Nat → Instant) :
    (s.takeReport filed).front = s.front := by
  unfold takeReport
  split
  next => rfl
  next =>
    dsimp only
    split <;> rfl

theorem tallied_evaluate {s : Session} (h : s.back.Tallied) (now : Instant) :
    (s.evaluate now).back.Tallied := by
  unfold evaluate
  split
  next =>
    split
    next => exact h
    next => exact (s.frame_callPass _ _).1.symm ▸ h
  next => exact h
  next => exact h
  next => exact ⟨h.delivered, h.failed⟩
  next =>
    split
    next => exact ⟨h.delivered, h.failed⟩
    next => exact h
  next => exact h

theorem tallied_take {s : Session} (h : s.back.Tallied) : s.take.back.Tallied := by
  unfold take
  split
  next => exact ⟨h.delivered, h.failed⟩
  next => exact h

theorem tallied_deliver {s : Session} (h : s.back.Tallied) (now : Instant) (lane : Nat)
    (w : World) : (s.deliver now lane w).back.Tallied := by
  unfold deliver
  split
  next => exact ⟨h.delivered, h.failed⟩
  next => exact h

end Session

/-- How a run stands after this work of its evaluating side. -/
structure Stands (cal : Calendar) (m : Monitor) (feed : List Snapshot) (stopped : Bool)
    (s : Session) (w : Work) : Prop where
  evaluating : Evaluating cal m.engine feed stopped s.front w
  dispatching : Dispatching cal m.dispatcher w.offered w.saved s.back
  tallied : s.back.Tallied

section Stands

variable {cal : Calendar} {m : Monitor} {feed : List Snapshot} {stopped : Bool} {s : Session}
  {w : Work}

/-- At the beginning nothing is done. -/
theorem stands_start (cal : Calendar) (m : Monitor) (feed : List Snapshot) :
    Stands cal m feed false (Session.start m feed)
      ⟨[], { engine := m.engine }, [], [], [], [], []⟩ where
  evaluating := .start cal m feed
  dispatching :=
    have hoffered : ([] : List (List Event)) = [] ++ [] := rfl
    .idle hoffered rfl rfl (Dispatcher.save_nil m.dispatcher).symm
  tallied := ⟨rfl, rfl⟩

variable (hrunning : m.engine.running = true) (hopen : m.dispatcher.closed = false)
  (hrange : (runOn cal m feed).1.overflowed = false)

/-- A stop of the engine. -/
theorem Stands.stop (h : Stands cal m feed stopped s w)
    (hrunning : m.engine.running = true) : Stands cal m feed true (s.moved cal .stop) w :=
  ⟨h.evaluating.stop hrunning, h.dispatching, h.tallied⟩

include hrunning hopen hrange

/-- Any other step. -/
theorem Stands.move (h : Stands cal m feed stopped s w) (move : Move) (hmove : move ≠ .stop) :
    ∃ w', Stands cal m feed stopped (s.moved cal move) w' := by
  cases move with
  | evaluate =>
    obtain ⟨w', hw', hback, -⟩ := h.evaluating.evaluate hrunning
    exact ⟨w', hw', hback _ h.dispatching, Session.tallied_evaluate h.tallied _⟩
  | advance pick =>
    obtain ⟨w', hw', hoffered, hsaved, -⟩ := h.evaluating.advance hrunning hrange pick
    have hback := s.back_advance (s.passTime cal) pick
    refine ⟨w', hw', ?_, ?_⟩ <;> rw [Session.moved, Session.apply, hback]
    · rw [hoffered, hsaved]
      exact h.dispatching
    · exact h.tallied
  | stop => exact absurd rfl hmove
  -- the dispatching side works on what was offered, and leaves the evaluating side
  | take =>
    exact ⟨w, s.front_take.symm ▸ h.evaluating, h.dispatching.take hopen,
      Session.tallied_take h.tallied⟩
  | deliver lane =>
    exact ⟨w, (s.front_deliver _ _ _).symm ▸ h.evaluating, h.dispatching.deliver lane,
      Session.tallied_deliver h.tallied _ _ _⟩
  | report =>
    exact ⟨w, (s.front_takeReport _).symm ▸ h.evaluating, h.dispatching.report hopen,
      Session.tallied_takeReport h.tallied _⟩

/-- Whatever the steps, the run stands as after work of its evaluating side, and the engine has been
stopped only by one of them. -/
theorem Stands.follow (h : Stands cal m feed stopped s w) (moves : List Move) :
    ∃ stopped' w', Stands cal m feed stopped' (s.follow cal moves) w' ∧
      (stopped' = true → stopped = true ∨ .stop ∈ moves) := by
  induction moves generalizing s stopped w with
  | nil => exact ⟨stopped, w, h, .inl⟩
  | cons move moves ih =>
    -- a stop is the only step after which the engine stands otherwise
    by_cases hmove : move = .stop
    · subst hmove
      obtain ⟨stopped', w', h', -⟩ := ih (h.stop hrunning)
      exact ⟨stopped', w', h', fun _ => .inr List.mem_cons_self⟩
    · obtain ⟨w₁, h₁⟩ := h.move hrunning hopen hrange move hmove
      obtain ⟨stopped', w', h', hstopped⟩ := ih h₁
      exact ⟨stopped', w', h', fun hstopped' =>
        (hstopped hstopped').imp_right (List.mem_cons_of_mem _)⟩

end Stands

/-! ## Bringing a run to its end -/

/-- Steps other than stops lead from one state of a run to another. -/
def Leads (cal : Calendar) (s s' : Session) : Prop :=
  ∃ moves, Move.stop ∉ moves ∧ s.follow cal moves = s'

section Leads

variable {cal : Calendar} {s s' s'' : Session}

theorem Leads.refl (cal : Calendar) (s : Session) : Leads cal s s :=
  ⟨[], List.not_mem_nil, rfl⟩

theorem Leads.trans (h : Leads cal s s') (h' : Leads cal s' s'') : Leads cal s s'' := by
  obtain ⟨moves, hmoves, rfl⟩ := h
  obtain ⟨moves', hmoves', rfl⟩ := h'
  refine ⟨moves ++ moves', fun hmem => ?_, Session.follow_append cal s moves moves'⟩
  exact (List.mem_append.1 hmem).elim hmoves hmoves'

/-- Each step but a stop leads further. -/
theorem Leads.move (move : Move) (hmove : move ≠ .stop) : Leads cal s (s.moved cal move) :=
  ⟨[move], fun hmem => hmove (List.mem_singleton.1 hmem).symm, rfl⟩

/-- Lanes make steps in this order. -/
theorem Session.follow_deliver {d : Dispatcher} {batch : List Event} {call : Nat}
    {steps : Nat → Nat} {r : Dispatcher.Run} (hdispatching : s.dispatching = some call)
    (h : s.dispatcher.Dispatches d batch (cal.occasions s.outcome.reports.length) call steps r)
    (order : List Nat) :
    s.follow cal (order.map .deliver) = { s with
      dispatcher := s.dispatcher.follow call (cal.occasions s.outcome.reports.length) order } := by
  induction order generalizing s steps r with
  | nil => rfl
  | cons lane order ih =>
    obtain ⟨r', h'⟩ := h.step lane
    have hmoved : s.moved cal (.deliver lane) = { s with
        dispatcher := s.dispatcher.stepOn call (cal.occasions s.outcome.reports.length) lane } :=
      Session.deliver_occasion hdispatching h.run?_eq lane
    rw [List.map_cons, Session.follow, List.foldl_cons, hmoved]
    exact ih hdispatching h'

/-- A report that is there is taken and counted. -/
theorem Session.takeReport_of_some {call : Nat} {filed : Nat → Instant}
    {report : Dispatcher.Report} (hdispatching : s.dispatching = some call)
    (hreport : (s.dispatcher.close filed call).report? call = some report) :
    s.takeReport filed = { s with
      dispatcher := s.dispatcher.close filed call
      dispatching := none
      outcome.summary := s.outcome.summary.dispatched report
      outcome.reports := s.outcome.reports ++ [report] } := by
  rw [takeReport, hdispatching]
  dsimp only
  rw [hreport]

/-- Where no dispatch is under way the first batch is taken. -/
theorem Session.take_of_cons {batch : List Event} {queue : List (List Event)}
    (hdispatching : s.dispatching = none) (hqueue : s.queue = batch :: queue) :
    s.take = { s with
      dispatcher := s.dispatcher.call batch
      queue
      dispatching := some s.dispatcher.calls.length } := by
  rw [take, hdispatching, hqueue]

/-- A run is over when both sides are done. -/
theorem Session.isOver_iff :
    s.isOver = true ↔ s.evaluator = .ended ∧ s.queue = [] ∧ s.dispatching = none := by
  unfold isOver
  split
  next hevaluator => simp [hevaluator]
  next hne => exact ⟨nofun, fun h => absurd h.1 hne⟩

end Leads

/-- So many rounds through all lanes. -/
def rounds (n lanes : Nat) : List Nat := (List.replicate n (List.range lanes)).flatten

/-- A lane has its turn once in a round. -/
theorem count_rounds {n lanes lane : Nat} (h : lane < lanes) : (rounds n lanes).count lane = n := by
  have hone : (List.range lanes).count lane = 1 :=
    List.count_eq_one_of_mem List.nodup_range (List.mem_range.2 h)
  rw [rounds, List.count_flatten, List.map_replicate, hone, List.sum_replicate_nat, Nat.mul_one]

section Progress

variable {cal : Calendar} {m : Monitor} {feed : List Snapshot} {stopped : Bool} {s s' : Session}
  {w : Work} (hrunning : m.engine.running = true) (hopen : m.dispatcher.closed = false)
  (hrange : (runOn cal m feed).1.overflowed = false)

/-- The dispatch that is under way can be brought to its end. -/
theorem Stands.exists_free (h : Stands cal m feed stopped s w) :
    ∃ s', Leads cal s s' ∧ s'.dispatching = none ∧ s'.queue = s.queue ∧ s'.front = s.front := by
  cases h.dispatching with
  | idle hoffered hdispatching => exact ⟨s, .refl cal s, hdispatching, rfl, rfl⟩
  | @busy taken batch call steps r hoffered hdispatching hreports hsends =>
    have hbusy : s.dispatching = some call := hdispatching
    let d := (dispatchEach cal m.dispatcher taken).2
    let order := rounds (3 * batch.length) d.outlets.length
    obtain ⟨r', h'⟩ := hsends.dispatches.follow order
    -- an event makes three steps at most
    have hidle : r'.isIdle = true := h'.isIdle fun lane o ho => by
      have hlength : (Dispatcher.accepted o.route batch).length ≤ batch.length := by
        rw [Dispatcher.accepted, List.length_map]
        exact Nat.le_trans (List.length_filter_le ..) (Nat.le_of_eq List.length_zipIdx)
      have hcount : order.count lane = 3 * batch.length :=
        count_rounds (List.getElem?_eq_some_iff.1 ho).1
      omega
    obtain ⟨hreport, -⟩ := h'.close hidle (cal.filed s.outcome.reports.length)
    have hdeliver : Leads cal s (s.follow cal (order.map .deliver)) :=
      ⟨order.map .deliver, by simp, rfl⟩
    rw [Session.follow_deliver hbusy hsends.dispatches order] at hdeliver
    let s₁ : Session := { s with
      dispatcher := s.dispatcher.follow call (cal.occasions s.outcome.reports.length) order }
    have hbusy₁ : s₁.dispatching = some call := hbusy
    have htaken : s₁.moved cal .report = _ := Session.takeReport_of_some hbusy₁ hreport
    refine ⟨_, hdeliver.trans (.move .report (by decide)), ?_⟩
    rw [htaken]
    exact ⟨rfl, rfl, rfl⟩

include hrunning hopen hrange

/-- Wherever steps other than stops lead, the run stands as after some work. -/
theorem Stands.leads (h : Stands cal m feed stopped s w) (hs : Leads cal s s') :
    ∃ w', Stands cal m feed stopped s' w' := by
  obtain ⟨moves, hmoves, rfl⟩ := hs
  induction moves generalizing s w with
  | nil => exact ⟨w, h⟩
  | cons move moves ih =>
    obtain ⟨hmove, hmoves⟩ := not_or.1 (mt List.mem_cons.2 hmoves)
    obtain ⟨w₁, h₁⟩ := h.move hrunning hopen hrange move (Ne.symm hmove)
    exact ih h₁ hmoves

/-- The batches that wait can be dispatched. -/
theorem Stands.exists_idle (h : Stands cal m feed stopped s w) :
    ∃ s', Leads cal s s' ∧ s'.dispatching = none ∧ s'.queue = [] ∧ s'.front = s.front := by
  induction hqueue : s.queue generalizing s w with
  | nil =>
    obtain ⟨s₁, hs₁, hfree, hqueue₁, hfront₁⟩ := h.exists_free
    exact ⟨s₁, hs₁, hfree, hqueue₁.trans hqueue, hfront₁⟩
  | cons batch queue ih =>
    obtain ⟨s₁, hs₁, hfree, hqueue₁, hfront₁⟩ := h.exists_free
    have hs₂ := hs₁.trans (.move .take (by decide))
    obtain ⟨w₂, h₂⟩ := h.leads hrunning hopen hrange hs₂
    -- one batch less waits then
    have htake : s₁.moved cal .take = _ := Session.take_of_cons hfree (hqueue₁.trans hqueue)
    obtain ⟨s', hs', hfree', hqueue', hfront'⟩ := ih h₂ (congrArg Session.queue htake)
    exact ⟨s', hs₂.trans hs', hfree', hqueue', hfront'.trans (s₁.front_take.trans hfront₁)⟩

/-- The feed can be led to its end. -/
theorem Stands.exists_ended (h : Stands cal m feed stopped s w) :
    ∃ s', Leads cal s s' ∧ s'.evaluator = .ended := by
  -- on what is left to do for the evaluating side
  induction hk : s.front using Session.Front.wellFounded_closer.induction generalizing s w with
  | _ k ih =>
  subst hk
  by_cases hended : s.evaluator = .ended
  · exact ⟨s, .refl cal s, hended⟩
  by_cases hwaiting : ∃ ticket, s.evaluator = .waiting ticket
  · -- the engine makes a step towards the answer
    obtain ⟨w₁, h₁⟩ := h.move hrunning hopen hrange (.advance 0) (by decide)
    obtain ⟨-, -, -, -, hcloser⟩ := h.evaluating.advance hrunning hrange 0
    obtain ⟨s', hs', hended'⟩ := ih _ (hcloser hwaiting) h₁ rfl
    exact ⟨s', (Leads.move (.advance 0) (by decide)).trans hs', hended'⟩
  · -- the queue is emptied first, so that there is room in it
    obtain ⟨s₁, hs₁, hfree, hqueue, hfront⟩ := h.exists_idle hrunning hopen hrange
    obtain ⟨w₁, h₁⟩ := h.leads hrunning hopen hrange hs₁
    obtain ⟨w₂, h₂⟩ := h₁.move hrunning hopen hrange .evaluate (by decide)
    have hevaluator : s₁.evaluator = s.evaluator := congrArg Session.Front.evaluator hfront
    have hroom : s₁.queue.length < backlog := by
      rw [hqueue]
      decide
    obtain ⟨-, -, -, hcloser⟩ := h₁.evaluating.evaluate hrunning
    have hcloser' := hcloser (fun ticket hticket => hwaiting ⟨ticket, hevaluator ▸ hticket⟩)
      (hevaluator ▸ hended) hroom
    obtain ⟨s', hs', hended'⟩ := ih _ (hfront ▸ hcloser') h₂ rfl
    exact ⟨s', (hs₁.trans (Leads.move .evaluate (by decide))).trans hs', hended'⟩

/-- A run can be brought to its end. -/
theorem Stands.exists_isOver (h : Stands cal m feed stopped s w) :
    ∃ s', Leads cal s s' ∧ s'.isOver = true := by
  obtain ⟨s₁, hs₁, hended⟩ := h.exists_ended hrunning hopen hrange
  obtain ⟨w₁, h₁⟩ := h.leads hrunning hopen hrange hs₁
  -- batches may still wait then
  obtain ⟨s', hs', hfree, hqueue, hfront⟩ := h₁.exists_idle hrunning hopen hrange
  have hevaluator : s'.evaluator = s₁.evaluator := congrArg Session.Front.evaluator hfront
  exact ⟨s', hs₁.trans hs', Session.isOver_iff.2 ⟨hevaluator.trans hended, hqueue, hfree⟩⟩

end Progress

/-! ## What a run comes to -/

section Ended

variable {cal : Calendar} {m : Monitor} {feed : List Snapshot} {stopped : Bool} {s : Session}
  {w : Work}

/-- Once no batch waits and no dispatch is under way, all batches are dispatched. -/
theorem Dispatching.of_idle {d : Dispatcher} {offered : List (List Event)}
    {saved : List (Instant × Condition)} (h : Dispatching cal d offered saved s.back)
    (hdispatching : s.dispatching = none) (hqueue : s.queue = []) :
    s.outcome.reports = (dispatchEach cal d offered).1 ∧
      s.dispatcher.dispatcher = (dispatchEach cal d offered).2.save saved := by
  cases h with
  | @idle taken hoffered _ hreports hdispatcher =>
    have htaken : offered = taken := by
      rw [hoffered]
      exact (congrArg (taken ++ ·) hqueue).trans (List.append_nil _)
    rw [htaken]
    exact ⟨hreports, hdispatcher⟩
  | busy _ hbusy => cases hbusy.symm.trans hdispatching

/-- Once a run is over, either all passes are over, or the engine was stopped. -/
theorem Stands.of_isOver (h : Stands cal m feed stopped s w) (hover : s.isOver = true) :
    s.dispatcher.dispatcher = (monitorOf cal m.dispatcher w.passes).dispatcher ∧
    (feed = w.done ∧ s.engine.engine = w.passes.engine.stoppedIf stopped ∧
        s.outcome = outcomeOf cal m.dispatcher w.passes ∨
      stopped = true ∧ (∃ snapshot rest, feed = w.done ++ snapshot :: rest) ∧
        s.outcome = { outcomeOf cal m.dispatcher w.passes with
          summary.snapshots := w.done.length + 1 }) := by
  obtain ⟨hended, hqueue, hfree⟩ := Session.isOver_iff.1 hover
  obtain ⟨hreports, hdispatcher⟩ := h.dispatching.of_idle hfree hqueue
  obtain ⟨hunoffered, hunsaved, hend⟩ := h.evaluating.stage.of_ended hended
  have hbatches : w.offered = w.passes.batches := by
    rw [h.evaluating.batches, hunoffered, List.append_nil]
  have hsaved : w.saved = w.passes.saved := by
    rw [h.evaluating.saved, hunsaved]
    exact (List.append_nil _).symm
  rw [hbatches] at hreports hdispatcher
  rw [hsaved] at hdispatcher
  -- but for the snapshots everything is counted alike, however the run ends
  have houtcome : s.outcome = { outcomeOf cal m.dispatcher w.passes with
      summary.snapshots := s.outcome.summary.snapshots } := by
    have htriggered : s.outcome.summary.triggered = w.passes.triggered := h.evaluating.triggered
    have hinRange : s.outcome.overflowed = false := h.evaluating.inRange
    have hdelivered : s.outcome.summary.delivered = _ := h.tallied.delivered
    have hfailed : s.outcome.summary.failed = _ := h.tallied.failed
    dsimp only [Session.back] at hdelivered hfailed
    rw [hreports] at hdelivered hfailed
    dsimp only [outcomeOf, summaryOf]
    rw [← htriggered, ← hdelivered, ← hfailed, ← hreports, ← hinRange]
  have hsnapshots : s.outcome.summary.snapshots = w.done.length + w.current.length :=
    h.evaluating.snapshots
  refine ⟨hdispatcher, ?_⟩
  rcases hend with ⟨hcurrent, hengine, hfeed⟩ | ⟨hstopped, snapshot, hcurrent⟩
  · refine .inl ⟨?_, hengine.engine, ?_⟩
    · rw [h.evaluating.feed, hcurrent, hfeed, List.append_nil, List.append_nil]
    · rw [houtcome, hsnapshots, hcurrent, List.length_nil, Nat.add_zero,
        ← h.evaluating.passed.length_events]
      rfl
  · refine .inr ⟨hstopped, ⟨snapshot, s.feed, ?_⟩, ?_⟩
    · rw [h.evaluating.feed, hcurrent, List.append_assoc]
      rfl
    · rw [houtcome, hsnapshots, hcurrent]
      rfl

end Ended

/-- Evaluation and delivery side by side come to the same as one snapshot after the other led
through both. For every monitor whose engine runs and whose dispatcher is not shut down, every feed
whose passes stay in the range of decimals and dates, every calendar and all steps of the two sides
in any order, in which the engine may be stopped:

- the run can always be brought to its end;
- if the engine is not stopped, the run comes to what `runOn` comes to, and leaves the same monitor;
- in any case the passes over the first snapshots give their events, and the dispatcher is as
  `runOn` over these leaves it. They are all snapshots; or the engine was stopped, and one more was
  taken;
- the events are those of these passes, and there is a message, delivered or failed, for each of
  them and each outlet that accepts it. -/
theorem follow_isOver {cal : Calendar} {m : Monitor} {feed : List Snapshot}
    (hrunning : m.engine.running = true) (hopen : m.dispatcher.closed = false)
    (hrange : (runOn cal m feed).1.overflowed = false) (moves : List Move) :
    let s := (Session.start m feed).follow cal moves
    (∃ more, Move.stop ∉ more ∧ (s.follow cal more).isOver = true) ∧
    (s.isOver = true → Move.stop ∉ moves → (s.outcome, s.monitor) = runOn cal m feed) ∧
    (s.isOver = true → ∃ n p, Passed cal m.engine (feed.take n) p ∧
      let alone := runOn cal m (feed.take n)
      s.dispatcher.dispatcher = alone.2.dispatcher ∧
      (n = feed.length ∧ s.outcome = alone.1 ∨
        Move.stop ∈ moves ∧ n < feed.length ∧
          s.outcome = { alone.1 with summary.snapshots := n + 1 }) ∧
      alone.1.summary.snapshots = n ∧
      alone.1.summary.triggered = p.events.flatten.length ∧
      alone.1.summary.delivered + alone.1.summary.failed =
        (p.events.flatten.map m.dispatcher.reach).sum) := by
  intro s
  obtain ⟨stopped, w, h, hstopped⟩ :=
    (stands_start cal m feed).follow hrunning hopen hrange moves
  have hmoves : stopped = true → Move.stop ∈ moves := fun hs => (hstopped hs).resolve_left nofun
  refine ⟨?_, fun hover hquiet => ?_, fun hover => ?_⟩
  · -- from wherever the steps have led
    obtain ⟨s', ⟨more, hmore, rfl⟩, hover⟩ := h.exists_isOver hrunning hopen hrange
    exact ⟨more, hmore, hover⟩
  · -- without a stop all passes are over
    obtain ⟨hdispatcher, ⟨hfeed, hengine, houtcome⟩ | ⟨hstop, -⟩⟩ := h.of_isOver hover
    · have hpassed := h.evaluating.passed
      obtain rfl : stopped = false := Bool.eq_false_iff.2 fun hs => hquiet (hmoves hs)
      rw [hfeed, runOn_eq hpassed, houtcome, Session.monitor, hdispatcher, hengine]
      rfl
    · exact absurd (hmoves hstop) hquiet
  · obtain ⟨hdispatcher, hend⟩ := h.of_isOver hover
    have hpassed := h.evaluating.passed
    -- the snapshots whose passes are over are the first ones of the feed
    have htake : feed.take w.done.length = w.done := by
      rw [h.evaluating.feed, List.append_assoc, List.take_left]
    have hcounts := delivered_add_failed cal m.dispatcher w.passes.batches hopen
      w.passes.events.length w.passes.triggered
    rw [flatten_batches] at hcounts
    refine ⟨w.done.length, w.passes, ?_⟩
    rw [htake, runOn_eq hpassed]
    refine ⟨hpassed, hdispatcher, ?_, hpassed.length_events, List.length_flatten.symm, hcounts⟩
    rcases hend with ⟨hwhole, -, houtcome⟩ | ⟨hstop, ⟨snapshot, rest, hsplit⟩, houtcome⟩
    · exact .inl ⟨congrArg List.length hwhole.symm, houtcome⟩
    · refine .inr ⟨hmoves hstop, ?_, houtcome⟩
      rw [hsplit, List.length_append]
      exact Nat.lt_add_of_pos_right (Nat.succ_pos _)

/-- A calendar whose passes are an hour apart. -/
def Calendar.hourly (w : World) : Calendar where
  began n := ⟨3600 * n, 0⟩
  ended n := ⟨3600 * n + 1, 0⟩
  saved n i := ⟨3600 * n + 2 + i, 0⟩
  occasions n lane position := ⟨⟨3600 * n + 600 + 60 * position + lane, 0⟩, w⟩
  filed n i := ⟨3600 * n + 1800 + i, 0⟩

/-- Steps over three snapshots of two events each. The batches of the first two wait together until
the first is dispatched, with lanes in turn, while the third pass goes on. The steps in between are
taken when it has begun. -/
def interleaved (between : List Move) : List Move :=
  let pass := .evaluate :: List.replicate 4 (.advance 0)
  let offer := List.replicate 4 Move.evaluate
  let lanes := (rounds 6 2).map Move.deliver
  pass ++ offer ++ pass ++ offer ++ [.take, .evaluate, .advance 0] ++ between ++
    (lanes.flatMap fun lane => [lane, .advance 0]) ++ [.report, .take] ++ offer ++ [.evaluate] ++
    lanes ++ [.report, .take] ++ lanes ++ [.report]

/-- Every event goes through both outlets. -/
theorem reach_ofTwo (audit : Option Audit) (e : Event) :
    { Dispatcher.ofTwo with audit }.reach e = 2 := by
  have haccepts : ({} : Route).accepts e = true := by
    have hlow : Priority.low.level ≤ e.priority.level := e.priority.one_le
    simpa [Route.accepts] using hlow
  simp [Dispatcher.reach, Dispatcher.ofTwo, haccepts]

/-- Three snapshots trigger two conditions each, two of their batches wait in the queue together,
and each event goes through two outlets. If the engine is stopped during the third pass, what the
first two passes gave is dispatched all the same, and nothing else. -/
theorem follow_isOver_ofPair :
    let m : Monitor := ⟨.ofPair .sequential, { Dispatcher.ofTwo with audit := some {} }⟩
    let feed := [101, 102, 103].map fun price =>
      (Quote.ofPrice "BTCUSDT" (.ofInt64 price)).atTime ⟨0, 0⟩
    let cal := Calendar.hourly Dispatcher.Occasion.silent.world
    let start := Session.start m feed
    m.engine.running = true ∧ m.dispatcher.closed = false ∧
      (runOn cal m feed).1.overflowed = false ∧
      (start.follow cal ((interleaved []).take 18)).queue.map List.length = [2, 2] ∧
      (∃ s, start.follow cal (interleaved []) = s ∧ s.isOver = true ∧
        (s.outcome, s.monitor) = runOn cal m feed ∧ s.outcome.summary.snapshots = 3 ∧
        s.outcome.summary.triggered = 6 ∧
        s.outcome.summary.delivered + s.outcome.summary.failed = 12) ∧
      ∃ s, start.follow cal (interleaved [.stop]) = s ∧ s.isOver = true ∧
        s.dispatcher.dispatcher = (runOn cal m (feed.take 2)).2.dispatcher ∧
        s.outcome.summary.snapshots = 3 ∧ s.outcome.summary.triggered = 4 ∧
        s.outcome.summary.delivered + s.outcome.summary.failed = 8 := by
  intro m feed cal start
  have hrange : (runOn cal m feed).1.overflowed = false := by decide +kernel
  have hqueued : (start.follow cal ((interleaved []).take 18)).queue.map List.length = [2, 2] := by
    decide +kernel
  have htwice (events : List Event) :
      (events.map m.dispatcher.reach).sum = events.length * 2 := by
    rw [funext (reach_ofTwo _), List.map_const', List.sum_replicate_nat]
  have hquiet : Move.stop ∉ interleaved [] := by decide +kernel
  have hwhole := follow_isOver rfl rfl hrange (interleaved [])
  have hcut := follow_isOver rfl rfl hrange (interleaved [.stop])
  -- from here on the two runs are only what is known of them
  obtain ⟨s, hs⟩ : ∃ s, (Session.start m feed).follow cal (interleaved []) = s := ⟨_, rfl⟩
  obtain ⟨t, ht⟩ : ∃ t, (Session.start m feed).follow cal (interleaved [.stop]) = t := ⟨_, rfl⟩
  obtain ⟨hover, hsnapshots, htriggered⟩ : s.isOver = true ∧ s.outcome.summary.snapshots = 3 ∧
      s.outcome.summary.triggered = 6 := by
    rw [← hs]
    decide +kernel
  obtain ⟨hover', hsnapshots', htriggered'⟩ : t.isOver = true ∧
      t.outcome.summary.snapshots = 3 ∧ t.outcome.summary.triggered = 4 := by
    rw [← ht]
    decide +kernel
  rw [hs] at hwhole
  rw [ht] at hcut
  obtain ⟨-, hrun, hall⟩ := hwhole
  obtain ⟨n, p, -, -, ⟨-, hall⟩ | ⟨hstop, -⟩, -, hevents, hsent⟩ := hall hover
  swap
  · exact absurd hstop hquiet
  have hboth : s.outcome.summary.delivered + s.outcome.summary.failed = 6 * 2 := by
    rw [← htriggered, hall, hevents, hsent, htwice]
  refine ⟨rfl, rfl, hrange, hqueued, ⟨s, hs, hover, hrun hover hquiet, hsnapshots, htriggered,
    hboth⟩, t, ht, hover', ?_⟩
  obtain ⟨-, -, hsome⟩ := hcut
  obtain ⟨n', p', -, hdispatcher, ⟨hn', hsome⟩ | ⟨-, -, hsome⟩, -, hevents', hsent'⟩ :=
    hsome hover'
  · -- had all passes come to their ends, there would be as many events as without the stop
    have hsame : t.outcome = s.outcome := by
      rw [hsome, hn', List.take_length]
      exact (congrArg Prod.fst (hrun hover hquiet)).symm
    rw [hsame, htriggered] at htriggered'
    cases htriggered'
  · obtain rfl : n' = 2 := by
      rw [hsome] at hsnapshots'
      exact Nat.succ.inj hsnapshots'
    have htriggered'' : p'.events.flatten.length = 4 := by
      rw [← hevents', ← htriggered', hsome]
    refine ⟨hdispatcher, hsnapshots', htriggered', ?_⟩
    rw [hsome]
    dsimp only
    rw [hsent', htwice, htriggered'']

end MarketAlerts.Monitor
