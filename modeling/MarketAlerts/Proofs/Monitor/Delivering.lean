import MarketAlerts.Proofs.Dispatch.Turns
import MarketAlerts.Proofs.Monitor.Halves

/-!
# The dispatching side of a run

Whatever else happens in a run, its dispatching side dispatches the batches that were put into the
queue one after the other: those that were taken have their reports, one may be under way, and the
others wait.

- `Session.Sends`: how a dispatch stands beside which conditions are saved;
- `Dispatching`: how the dispatching side stands;
- `Dispatching.offer`, `Dispatching.save`: what the evaluating side does to it;
- `Dispatching.take`, `Dispatching.deliver`, `Dispatching.report`: what it does itself.
-/

namespace MarketAlerts

attribute [ext] Dispatcher

namespace Dispatcher

namespace Session

/-- How a session stands in which a dispatch of `d` is under way and conditions were saved before
and since. -/
structure Sends (d : Dispatcher) (batch : List Event) (occasions : Nat → Nat → Occasion)
    (saved : List (Instant × Condition)) (call : Nat) (steps : Nat → Nat) (s : Session) (r : Run) :
    Prop where
  dispatches : s.Dispatches d batch occasions call steps r
  audit : s.dispatcher.audit = (d.audit.map (recordEvents · batch)).map (·.saveAll saved)
  supply : s.dispatcher.supply = d.supply.drop (batch.length * d.outlets.length)
  closed : s.dispatcher.closed = false

variable {d : Dispatcher} {batch : List Event} {occasions : Nat → Nat → Occasion}
  {saved : List (Instant × Condition)} {call : Nat} {steps : Nat → Nat} {s : Session} {r : Run}

/-- A dispatch that is under way stays so while conditions are saved. -/
theorem Dispatches.save (h : s.Dispatches d batch occasions call steps r)
    (cs : List (Instant × Condition)) :
    { s with dispatcher := s.dispatcher.save cs }.Dispatches d batch occasions call steps r :=
  { h with
    each := fun lane o ho => by
      obtain ⟨done, rest, stage, hin⟩ := h.each lane o ho
      exact ⟨done, rest, stage, hin.frame rfl rfl rfl⟩ }

/-- A dispatch does not notice that conditions are saved. -/
theorem Sends.save (h : s.Sends d batch occasions saved call steps r)
    (cs : List (Instant × Condition)) :
    { s with dispatcher := s.dispatcher.save cs }.Sends d batch occasions (saved ++ cs) call steps
      r where
  dispatches := h.dispatches.save cs
  audit := by
    change s.dispatcher.audit.map _ = _
    rw [h.audit, Option.map_map]
    congr 1
    funext a
    exact (a.saveAll_append saved cs).symm
  supply := h.supply
  closed := h.closed

/-- A call for a dispatch and a save can change places. -/
theorem call_save (hopen : d.closed = false) (saved : List (Instant × Condition))
    (calls : List Call) (batch : List Event) :
    (Session.mk (d.save saved) calls).call batch =
      let s := (Session.mk d calls).call batch
      { s with dispatcher := s.dispatcher.save saved } := by
  have hsaved : (d.save saved).closed = false := hopen
  have haudit : (d.save saved).audit.map (recordEvents · batch) =
      (d.audit.map (recordEvents · batch)).map (·.saveAll saved) := by
    rw [Dispatcher.save, Option.map_map, Option.map_map]
    congr 1
    funext a
    exact recordEvents_saveAll a saved batch
  rw [Session.call, Session.call, hopen, hsaved, if_neg Bool.false_ne_true,
    if_neg Bool.false_ne_true]
  dsimp only
  rw [haudit]
  rfl

/-- A dispatch is under way as soon as it is called for, whatever was saved before. -/
theorem sends_call (hopen : d.closed = false) (saved : List (Instant × Condition))
    (calls : List Call) (batch : List Event) (occasions : Nat → Nat → Occasion) :
    ∃ r, ((Session.mk (d.save saved) calls).call batch).Sends d batch occasions saved calls.length
      (fun _ => 0) r := by
  obtain ⟨r, hr⟩ := dispatches_call hopen calls batch occasions
  have hsends : ((Session.mk d calls).call batch).Sends d batch occasions [] calls.length
      (fun _ => 0) r := by
    refine ⟨hr, ?_, ?_, ?_⟩ <;> rw [Session.call, hopen, if_neg Bool.false_ne_true]
    exact (Option.map_id' (x := d.audit.map _)).symm
  -- what is saved does not matter to the call, so that it can as well be saved afterwards
  rw [call_save hopen]
  exact ⟨r, hsends.save saved⟩

/-- A step on the occasion of the send that is up. -/
theorem stepOn_eq (hrun : s.run? call = some r) (occasions : Nat → Nat → Occasion) (lane : Nat) :
    s.stepOn call occasions lane =
      let occasion := occasions lane ((s.up? r lane).elim 0 (·.2.position))
      s.step occasion.now call lane occasion.world := by
  rw [stepOn, hrun, Option.bind_some]
  cases hup : s.up? r lane with
  | none => exact (step_of_up?_eq_none hrun hup).symm
  | some x => rfl

/-- A step of a lane changes outlets only. -/
theorem exists_outlets_stepOn (s : Session) (call : Nat) (occasions : Nat → Nat → Occasion)
    (lane : Nat) :
    ∃ outlets, (s.stepOn call occasions lane).dispatcher = { s.dispatcher with outlets } := by
  unfold stepOn
  split
  next => exact ⟨_, rfl⟩
  next =>
    unfold Session.step
    split
    next => exact ⟨_, rfl⟩
    next =>
      split
      next => exact ⟨_, rfl⟩
      next => exact ⟨_, rfl⟩

/-- A step of a lane brings the dispatch further. -/
theorem Sends.stepOn (h : s.Sends d batch occasions saved call steps r) (lane : Nat) :
    ∃ r', (s.stepOn call occasions lane).Sends d batch occasions saved call
      (Function.update steps lane (steps lane + 1)) r' := by
  obtain ⟨r', h'⟩ := h.dispatches.step lane
  obtain ⟨outlets, houtlets⟩ := s.exists_outlets_stepOn call occasions lane
  refine ⟨r', h', ?_, ?_, ?_⟩ <;> rw [houtlets]
  · exact h.audit
  · exact h.supply
  · exact h.closed

/-- A dispatch that has nothing left to do is over, with its report. -/
theorem Sends.close (h : s.Sends d batch occasions saved call steps r) (hopen : d.closed = false)
    (hidle : r.isIdle = true) (filed : Nat → Instant) :
    (s.close filed call).report? call = some (d.dispatchOn occasions filed batch).1 ∧
      (s.close filed call).dispatcher = (d.dispatchOn occasions filed batch).2.save saved := by
  obtain ⟨hreport, houtlets⟩ := h.dispatches.close hidle filed
  have harrange := arrange_eq (h.dispatches.nodup_placed hidle) (h.dispatches.mem_placed hidle)
  have hdispatcher : (s.close filed call).dispatcher = { s.dispatcher with
      audit := s.dispatcher.audit.map
        (recordDeliveries · (stamped filed (arrange r.placed))) } := by
    rw [Session.close, h.dispatches.run?_eq]
    simp only [hidle, Bool.or_true, if_pos]
  rw [dispatchOn, hopen, if_neg Bool.false_ne_true]
  -- the outlets lane by lane, and the rest field by field
  refine ⟨hreport, Dispatcher.ext (List.ext_getElem? fun lane => ?_) ?_ ?_ ?_ ?_⟩
  · dsimp only [Dispatcher.save]
    rw [houtlets, laneAlone?, Option.map_map, List.getElem?_mapIdx]
    rfl
  all_goals rw [hdispatcher]
  · exact h.dispatches.templates
  · dsimp only [Dispatcher.save]
    rw [h.audit, harrange, Option.map_map, Option.map_map, Option.map_map]
    congr 1
    funext a
    exact recordDeliveries_saveAll ..
  · exact h.closed
  · exact h.supply

/-- A dispatch that has something left to do is not over. -/
theorem Sends.report?_close (h : s.Sends d batch occasions saved call steps r)
    (hidle : r.isIdle = false) (filed : Nat → Instant) :
    (s.close filed call).report? call = none := by
  rw [Session.close, h.dispatches.run?_eq]
  simp [h.dispatches.broken, hidle, report?, h.dispatches.run]

end Session

end Dispatcher

namespace Monitor

/-! ## The dispatching side -/

/-- What the dispatching side of a run works on. -/
structure Session.Back where
  /-- The dispatcher, and the calls for dispatches. -/
  dispatcher : Dispatcher.Session
  /-- The batches that wait to be dispatched. -/
  queue : List (List Event)
  /-- The call for the dispatch that is under way. -/
  dispatching : Option Nat
  /-- The reports so far. -/
  reports : List Dispatcher.Report
  /-- The messages that arrived so far. -/
  delivered : Nat
  /-- The messages that did not. -/
  failed : Nat

/-- The dispatching side of a run. -/
def Session.back (s : Session) : Back where
  dispatcher := s.dispatcher
  queue := s.queue
  dispatching := s.dispatching
  reports := s.outcome.reports
  delivered := s.outcome.summary.delivered
  failed := s.outcome.summary.failed

/-- What is counted is what the reports say. -/
structure Session.Back.Tallied (k : Back) : Prop where
  delivered : k.delivered = (k.reports.map (·.successful)).sum
  failed : k.failed = (k.reports.map (·.failed)).sum

theorem Session.tallied_takeReport {s : Session} (h : s.back.Tallied) (filed : Nat → Instant) :
    (s.takeReport filed).back.Tallied := by
  unfold takeReport
  split
  next => exact h
  next =>
    dsimp only
    split
    next => exact h
    next report _ =>
      obtain ⟨hdelivered, hfailed⟩ := h
      dsimp only [back] at hdelivered hfailed
      constructor <;> simp [back, Summary.dispatched, hdelivered, hfailed]

/-- What the send meets that is up in a lane. -/
def Session.occasion (cal : Calendar) (s : Session) (lane : Nat) : Dispatcher.Occasion :=
  let up := s.dispatching.bind fun call =>
    (s.dispatcher.run? call).bind fun r => s.dispatcher.up? r lane
  cal.occasions s.outcome.reports.length lane (up.elim 0 (·.2.position))

/-- A lane makes its step on the occasion of its send. -/
theorem Session.deliver_occasion {cal : Calendar} {s : Session} {call : Nat} {r : Dispatcher.Run}
    (hdispatching : s.dispatching = some call) (hrun : s.dispatcher.run? call = some r)
    (lane : Nat) :
    s.deliver (s.occasion cal lane).now lane (s.occasion cal lane).world = { s with
      dispatcher := s.dispatcher.stepOn call (cal.occasions s.outcome.reports.length) lane } := by
  rw [deliver, occasion, hdispatching, Option.bind_some, hrun, Option.bind_some,
    Dispatcher.Session.stepOn_eq hrun]

/-- How the dispatching side stands when these batches were put into the queue and these conditions
were saved. -/
inductive Dispatching (cal : Calendar) (d : Dispatcher) (offered : List (List Event))
    (saved : List (Instant × Condition)) (k : Session.Back) : Prop
  /-- No dispatch is under way. -/
  | idle {taken : List (List Event)} (hoffered : offered = taken ++ k.queue)
    (hdispatching : k.dispatching = none) (hreports : k.reports = (dispatchEach cal d taken).1)
    (hdispatcher : k.dispatcher.dispatcher = (dispatchEach cal d taken).2.save saved)
  /-- A dispatch is under way. -/
  | busy {taken : List (List Event)} {batch : List Event} {call : Nat} {steps : Nat → Nat}
    {r : Dispatcher.Run} (hoffered : offered = taken ++ batch :: k.queue)
    (hdispatching : k.dispatching = some call) (hreports : k.reports = (dispatchEach cal d taken).1)
    (hsends : k.dispatcher.Sends (dispatchEach cal d taken).2 batch
      (cal.occasions k.reports.length) saved call steps r)

namespace Dispatching

variable {cal : Calendar} {d : Dispatcher} {offered : List (List Event)}
  {saved : List (Instant × Condition)} {s : Session}

/-- A batch is put into the queue. -/
theorem offer (h : Dispatching cal d offered saved s.back) (batch : List Event) :
    Dispatching cal d (offered ++ [batch]) saved
      { s.back with queue := s.queue ++ [batch] } := by
  cases h with
  | idle hoffered hdispatching hreports hdispatcher =>
    exact .idle (by rw [hoffered, List.append_assoc]; rfl) hdispatching hreports hdispatcher
  | busy hoffered hdispatching hreports hsends =>
    exact .busy (by rw [hoffered, List.append_assoc]; rfl) hdispatching hreports hsends

/-- Conditions are saved. -/
theorem save (h : Dispatching cal d offered saved s.back) (cs : List (Instant × Condition)) :
    Dispatching cal d offered (saved ++ cs) { s.back with
      dispatcher.dispatcher := s.dispatcher.dispatcher.save cs } := by
  cases h with
  | idle hoffered hdispatching hreports hdispatcher =>
    refine .idle hoffered hdispatching hreports ?_
    rw [Dispatcher.save_append, ← hdispatcher]
    rfl
  | busy hoffered hdispatching hreports hsends =>
    exact .busy hoffered hdispatching hreports (hsends.save cs)

/-- The next batch is taken. -/
theorem take (h : Dispatching cal d offered saved s.back) (hopen : d.closed = false) :
    Dispatching cal d offered saved s.take.back := by
  obtain ⟨engine, ⟨dispatcher, calls⟩, feed, evaluator, queue, dispatching, outcome⟩ := s
  cases h with
  | idle hoffered hdispatching hreports hdispatcher =>
    dsimp only [Session.back] at hoffered hdispatching hreports hdispatcher
    subst hdispatching hdispatcher
    cases queue with
    | nil =>
      -- there is nothing to take
      exact .idle hoffered rfl hreports rfl
    | cons batch queue =>
      obtain ⟨r, hsends⟩ := Dispatcher.Session.sends_call
        ((closed_dispatchEach cal d _).trans hopen) saved calls batch
        (cal.occasions outcome.reports.length)
      exact .busy hoffered rfl hreports hsends
  | busy hoffered hdispatching hreports hsends =>
    dsimp only [Session.back] at hdispatching
    subst hdispatching
    exact .busy hoffered rfl hreports hsends

/-- A lane makes its next step. -/
theorem deliver (h : Dispatching cal d offered saved s.back) (lane : Nat) :
    Dispatching cal d offered saved
      (s.deliver (s.occasion cal lane).now lane (s.occasion cal lane).world).back := by
  cases h with
  | idle hoffered hdispatching hreports hdispatcher =>
    have hidle : s.dispatching = none := hdispatching
    rw [Session.deliver, hidle]
    exact .idle hoffered hdispatching hreports hdispatcher
  | @busy taken batch call steps r hoffered hdispatching hreports hsends =>
    have hbusy : s.dispatching = some call := hdispatching
    obtain ⟨r', hsends'⟩ := hsends.stepOn lane
    rw [Session.deliver_occasion hbusy hsends.dispatches.run?_eq]
    exact .busy hoffered hdispatching hreports hsends'

/-- The report of a dispatch is taken, once there is one. -/
theorem report (h : Dispatching cal d offered saved s.back) (hopen : d.closed = false) :
    Dispatching cal d offered saved
      (s.takeReport (cal.filed s.outcome.reports.length)).back := by
  cases h with
  | idle hoffered hdispatching hreports hdispatcher =>
    have hidle : s.dispatching = none := hdispatching
    rw [Session.takeReport, hidle]
    exact .idle hoffered hdispatching hreports hdispatcher
  | @busy taken batch call steps r hoffered hdispatching hreports hsends =>
    have hbusy : s.dispatching = some call := hdispatching
    rw [Session.takeReport, hbusy]
    dsimp only
    cases hleft : r.isIdle with
    | false =>
      -- a lane has something left to do
      have hnone : (s.dispatcher.close (cal.filed s.outcome.reports.length) call).report? call =
          none := hsends.report?_close hleft _
      rw [hnone]
      exact .busy hoffered hdispatching hreports hsends
    | true =>
      obtain ⟨hreport, hdispatcher⟩ := hsends.close ((closed_dispatchEach cal d taken).trans hopen)
        hleft (cal.filed s.outcome.reports.length)
      dsimp only [Session.back] at hreport hdispatcher hoffered hreports
      -- the batch is now one of those that have their reports
      have hoffered' : offered = (taken ++ [batch]) ++ s.queue := by
        rw [hoffered, List.append_assoc]
        rfl
      rw [hreport]
      refine .idle hoffered' rfl ?_ ?_
      · rw [dispatchEach_concat, ← hreports]
        rfl
      · rw [dispatchEach_concat, ← hreports]
        exact hdispatcher

end Dispatching

end Monitor

end MarketAlerts
