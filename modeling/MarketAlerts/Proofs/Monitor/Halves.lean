import Mathlib.Algebra.GroupWithZero.Nat
import Mathlib.Data.List.Induction
import MarketAlerts.Monitor.Session
import MarketAlerts.Proofs.Dispatch.Reports
import MarketAlerts.Proofs.Engine.Runs

/-!
# The two halves of a run

A run of the monitor leads each snapshot through the engine and then its events through the
dispatcher. When its passes begin and end, when conditions are saved, what its sends meet and when
their results are filed is given by a `Calendar`. The passes do not depend on the dispatches, and
the dispatches depend on the events of the passes only.

- `runOn_constant`: at one time and in one world the run on a calendar is `Monitor.run`;
- `runOn_of_passed`: a run is its passes (`Passed`), and its dispatches one after the other
  (`dispatchEach`), with the conditions of all events saved;
- `Passed.exists_pass`: where nothing leaves the range of decimals and dates, every pass gives its
  events.
-/

namespace MarketAlerts

/-! ## Saved conditions -/

namespace Audit

/-- The audit with more conditions saved, one after the other, each at its time. -/
def saveAll (a : Audit) (cs : List (Instant × Condition)) : Audit :=
  cs.foldl (fun a x => a.saveCondition x.1 x.2) a

/-- Conditions are saved part by part. -/
theorem saveAll_append (a : Audit) (cs cs' : List (Instant × Condition)) :
    a.saveAll (cs ++ cs') = (a.saveAll cs).saveAll cs' :=
  List.foldl_append

/-- Conditions are saved in a table of their own: what passes over one passes over all. -/
theorem map_saveAll (f : Audit → Audit)
    (hf : ∀ a now c, f (a.saveCondition now c) = (f a).saveCondition now c) (a : Audit)
    (cs : List (Instant × Condition)) : f (a.saveAll cs) = (f a).saveAll cs :=
  (List.foldl_hom f fun a x => (hf a x.1 x.2).symm).symm

end Audit

namespace Dispatcher

/-- Saves conditions in the audit, each at its time. -/
def save (d : Dispatcher) (cs : List (Instant × Condition)) : Dispatcher :=
  { d with audit := d.audit.map (·.saveAll cs) }

/-- Nothing is saved. -/
theorem save_nil (d : Dispatcher) : d.save [] = d := by
  obtain ⟨_, _, audit, _, _⟩ := d
  cases audit <;> rfl

/-- Conditions are saved part by part. -/
theorem save_append (d : Dispatcher) (cs cs' : List (Instant × Condition)) :
    d.save (cs ++ cs') = (d.save cs).save cs' := by
  obtain ⟨_, _, audit, _, _⟩ := d
  cases audit with
  | none => rfl
  | some a => simp [save, Audit.saveAll_append]

/-- Events are recorded whatever conditions are saved. -/
theorem recordEvents_saveCondition (a : Audit) (now : Instant) (c : Condition)
    (events : List Event) :
    recordEvents (a.saveCondition now c) events = (recordEvents a events).saveCondition now c := by
  induction events generalizing a with
  | nil => rfl
  | cons e events ih =>
    -- whether an event is known does not depend on the conditions
    have hrecord : ((a.saveCondition now c).recordEvent e).toOption.getD (a.saveCondition now c) =
        ((a.recordEvent e).toOption.getD a).saveCondition now c := by
      cases hknown : a.events.any fun other =>
          other.eventId = (Audit.EventRow.ofEvent e).eventId <;>
        simp [Audit.recordEvent, Audit.saveCondition, hknown, Except.toOption]
    exact (congrArg (recordEvents · events) hrecord).trans (ih _)

/-- Deliveries are recorded whatever conditions are saved. -/
theorem recordDeliveries_saveCondition (a : Audit) (now : Instant) (c : Condition)
    (xs : List (Instant × Sent)) :
    recordDeliveries (a.saveCondition now c) xs =
      (recordDeliveries a xs).saveCondition now c := by
  induction xs generalizing a with
  | nil => rfl
  | cons x xs ih =>
    -- nor does the number of deliveries
    have hrecord : ((a.saveCondition now c).recordDelivery (deliveryRecord x.1 x.2)).toOption.getD
          (a.saveCondition now c) =
        ((a.recordDelivery (deliveryRecord x.1 x.2)).toOption.getD a).saveCondition now c := by
      by_cases hroom : a.deliveries.length < Audit.maxDeliveries <;>
        simp [Audit.recordDelivery, Audit.saveCondition, hroom, Except.toOption]
    exact (congrArg (recordDeliveries · xs) hrecord).trans (ih _)

/-- Events can as well be recorded before conditions are saved. -/
theorem recordEvents_saveAll (a : Audit) (cs : List (Instant × Condition)) (events : List Event) :
    recordEvents (a.saveAll cs) events = (recordEvents a events).saveAll cs :=
  Audit.map_saveAll (recordEvents · events) (recordEvents_saveCondition · · · events) a cs

/-- Deliveries can as well be recorded before conditions are saved. -/
theorem recordDeliveries_saveAll (a : Audit) (cs : List (Instant × Condition))
    (xs : List (Instant × Sent)) :
    recordDeliveries (a.saveAll cs) xs = (recordDeliveries a xs).saveAll cs :=
  Audit.map_saveAll (recordDeliveries · xs) (recordDeliveries_saveCondition · · · xs) a cs

/-! ## Dispatches on occasions -/

/-- Hands events to the outlets whose routes accept them, each send on its occasion, and files the
results one after the other at these times. -/
def dispatchOn (d : Dispatcher) (occasions : Nat → Nat → Occasion) (filed : Nat → Instant)
    (events : List Event) : Report × Dispatcher :=
  if d.closed then ({ cancelled := true }, d)
  else
    let deliveries := (List.range events.length).flatMap fun position =>
      (List.range d.outlets.length).filterMap fun lane => d.sent? events occasions lane position
    ({ deliveries }, { d with
      outlets := d.outlets.mapIdx fun lane o =>
        (d.sendAlone occasions lane (accepted o.route events) o).2
      audit := d.audit.map fun a =>
        recordDeliveries (recordEvents a events) (stamped filed deliveries)
      supply := d.supply.drop (events.length * d.outlets.length) })

/-- Where all sends meet the same, this is what `dispatch` does. -/
theorem dispatchOn_constant (d : Dispatcher) (now : Instant) (w : World) (events : List Event) :
    d.dispatchOn (fun _ _ => ⟨now, w⟩) (fun _ => now) events = d.dispatch now w events := by
  cases hclosed : d.closed with
  | true => rw [dispatchOn, dispatch, hclosed, if_pos rfl, if_pos rfl]
  | false =>
    obtain ⟨hreport, houtlets⟩ :
        (d.dispatch now w events).1 = _ ∧ ∀ lane, (d.dispatch now w events).2.outlets[lane]? = _ :=
      dispatch_eq hclosed ⟨now, w⟩
    have hdeliveries := congrArg Report.deliveries hreport
    have hsame : (d.dispatch now w events).2.outlets = d.outlets.mapIdx fun lane o =>
        (d.sendAlone (fun _ _ => ⟨now, w⟩) lane (accepted o.route events) o).2 := by
      refine List.ext_getElem? fun lane => ?_
      rw [houtlets, laneAlone?, List.getElem?_mapIdx, Option.map_map]
      rfl
    rw [dispatchOn, hclosed, if_neg Bool.false_ne_true, ← hsame]
    dsimp only at hdeliveries ⊢
    rw [← hdeliveries, dispatch, hclosed, if_neg Bool.false_ne_true]

/-- A dispatch does not look at saved conditions. -/
theorem dispatchOn_save (d : Dispatcher) (cs : List (Instant × Condition))
    (occasions : Nat → Nat → Occasion) (filed : Nat → Instant) (events : List Event) :
    (d.save cs).dispatchOn occasions filed events =
      ((d.dispatchOn occasions filed events).1,
        (d.dispatchOn occasions filed events).2.save cs) := by
  have haudit (xs : List (Instant × Sent)) :
      ((d.save cs).audit.map fun a => recordDeliveries (recordEvents a events) xs) =
        (d.audit.map fun a => recordDeliveries (recordEvents a events) xs).map
          (·.saveAll cs) := by
    rw [save, Option.map_map, Option.map_map]
    congr 1
    funext a
    rw [Function.comp_apply, recordEvents_saveAll, recordDeliveries_saveAll]
    rfl
  -- the audit is the only part that both touch, and they do so in any order
  cases hclosed : d.closed with
  | true =>
    have hsaved : (d.save cs).closed = true := hclosed
    rw [dispatchOn, dispatchOn, hclosed, hsaved, if_pos rfl, if_pos rfl]
  | false =>
    have hsaved : (d.save cs).closed = false := hclosed
    rw [dispatchOn, dispatchOn, hclosed, hsaved, if_neg Bool.false_ne_true,
      if_neg Bool.false_ne_true]
    dsimp only
    rw [haudit]
    rfl

end Dispatcher

/-- The conditions of events, as they are in the watchlist, with the times at which they are saved.
Each event comes with its place among those that are saved one after the other. -/
def Engine.conditionsOf (e : Engine) (saved : Nat → Instant) (events : List (Event × Nat)) :
    List (Instant × Condition) :=
  events.filterMap fun (event, i) =>
    (e.watchlist.get? event.conditionId).map fun c => (saved i, c)

/-- The condition of the first event comes before the others. -/
theorem Engine.conditionsOf_cons (e : Engine) (saved : Nat → Instant) (event : Event) (i : Nat)
    (events : List (Event × Nat)) :
    e.conditionsOf saved ((event, i) :: events) =
      ((e.watchlist.get? event.conditionId).map fun c => (saved i, c)).toList ++
        e.conditionsOf saved events := by
  cases hget : e.watchlist.get? event.conditionId <;> simp [conditionsOf, hget]

namespace Monitor

/-- The condition of an event is saved if it is there. -/
theorem saveCondition_eq (m : Monitor) (now : Instant) (e : Event) :
    m.saveCondition now e = ⟨m.engine, m.dispatcher.save
      ((m.engine.watchlist.get? e.conditionId).map fun c => (now, c)).toList⟩ := by
  unfold saveCondition
  split
  next hnone =>
    rw [hnone, Option.map_none, Option.toList_none, Dispatcher.save_nil]
  next c hsome =>
    rw [hsome]
    rfl

/-- The conditions of events are saved one after the other. -/
theorem saveConditions_eq (m : Monitor) (saved : Nat → Instant) (events : List Event) :
    m.saveConditions saved events =
      ⟨m.engine, m.dispatcher.save (m.engine.conditionsOf saved events.zipIdx)⟩ := by
  unfold saveConditions
  -- wherever the places begin
  induction events.zipIdx generalizing m with
  | nil => rw [Engine.conditionsOf, List.filterMap_nil, Dispatcher.save_nil]; rfl
  | cons x xs ih =>
    obtain ⟨e, i⟩ := x
    rw [List.foldl_cons]
    refine (ih (m.saveCondition (saved i) e)).trans ?_
    rw [saveCondition_eq, ← Dispatcher.save_append, Engine.conditionsOf_cons]

/-! ## The run on a calendar -/

/-- What is given to a run from outside. -/
structure Calendar where
  /-- When each pass begins. -/
  began : Nat → Instant
  /-- When it ends. -/
  ended : Nat → Instant
  /-- When the conditions of its events are saved, one after the other. -/
  saved : Nat → Nat → Instant
  /-- What the sends of each dispatch meet, by outlet and position. -/
  occasions : Nat → Nat → Nat → Dispatcher.Occasion
  /-- When the results of each dispatch are filed, one after the other. -/
  filed : Nat → Nat → Instant

/-- One time, and one world. -/
def Calendar.constant (now : Instant) (w : World) : Calendar :=
  ⟨fun _ => now, fun _ => now, fun _ _ => now, fun _ _ _ => ⟨now, w⟩, fun _ _ => now⟩

/-- Leads snapshots through the engine and the events of each pass, if there are any, through the
dispatcher, one after the other on a calendar. -/
def runFromOn (cal : Calendar) (o : Outcome) (m : Monitor) : List Snapshot → Outcome × Monitor
  | [] => (o, m)
  | s :: rest =>
    let n := o.summary.snapshots
    match m.engine.evaluateBetween (cal.began n) (cal.ended n) s with
    | (.error e, engine) =>
      ({ o with summary := o.summary.observed 0, overflowed := e = .overflow }, { m with engine })
    | (.ok [], engine) =>
      runFromOn cal { o with summary := o.summary.observed 0 } { m with engine } rest
    | (.ok events, engine) =>
      let m := Monitor.saveConditions { m with engine } (cal.saved n) events
      let (report, dispatcher) := m.dispatcher.dispatchOn (cal.occasions o.reports.length)
        (cal.filed o.reports.length) events
      runFromOn cal { o with
        summary := (o.summary.observed events.length).dispatched report
        reports := o.reports ++ [report] } { m with dispatcher } rest

/-- Runs the monitor over a feed of snapshots on a calendar. -/
def runOn (cal : Calendar) (m : Monitor) (feed : List Snapshot) : Outcome × Monitor :=
  runFromOn cal {} m feed

/-- From wherever a run has come, it goes on alike at one time and in one world. -/
theorem runFromOn_constant (now : Instant) (w : World) (o : Outcome) (m : Monitor)
    (feed : List Snapshot) :
    runFromOn (.constant now w) o m feed = runFrom now w o m feed := by
  induction feed generalizing o m with
  | nil => rfl
  | cons s rest ih =>
    rw [runFromOn, runFrom, observe, Engine.evaluateAll_eq]
    dsimp only [Calendar.constant]
    obtain ⟨result, engine⟩ := m.engine.evaluateBetween now now s
    rcases result with e | _ | ⟨e, events⟩
    · rfl
    · exact ih _ _
    · dsimp only
      rw [Dispatcher.dispatchOn_constant]
      exact ih _ _

/-- At one time and in one world the run on a calendar is the run. -/
theorem runOn_constant (now : Instant) (w : World) (m : Monitor) (feed : List Snapshot) :
    runOn (.constant now w) m feed = m.run now w feed :=
  runFromOn_constant now w {} m feed

/-! ## Passes -/

/-- What comes of passes. -/
structure Passes where
  /-- The engine after them. -/
  engine : Engine
  /-- The events of each. -/
  events : List (List Event) := []
  /-- The conditions of all events, each as it was after its pass, with the times of the saves. -/
  saved : List (Instant × Condition) := []

/-- The events of the passes that had any. -/
def Passes.batches (p : Passes) : List (List Event) := p.events.filter fun es => !es.isEmpty

/-- The number of events. -/
def Passes.triggered (p : Passes) : Nat := (p.events.map List.length).sum

/-- What comes of passes with one more. -/
def Passes.concat (p : Passes) (saved : Nat → Instant) (events : List Event) (engine : Engine) :
    Passes :=
  ⟨engine, p.events ++ [events], p.saved ++ engine.conditionsOf saved events.zipIdx⟩

/-- Passes over snapshots, one after the other on a calendar, that all give their events. -/
inductive Passed (cal : Calendar) (e : Engine) : List Snapshot → Passes → Prop
  | start : Passed cal e [] { engine := e }
  | next {feed p snapshot events engine} (h : Passed cal e feed p)
    (hpass : p.engine.evaluateBetween (cal.began p.events.length) (cal.ended p.events.length)
      snapshot = (.ok events, engine)) :
    Passed cal e (feed ++ [snapshot]) (p.concat (cal.saved p.events.length) events engine)

/-! ## Dispatches -/

/-- Dispatches batches of events, one after the other on a calendar. -/
def dispatchEach (cal : Calendar) (d : Dispatcher) (batches : List (List Event)) :
    List Dispatcher.Report × Dispatcher :=
  batches.foldl (fun (reports, d) batch =>
    let (report, d) := d.dispatchOn (cal.occasions reports.length) (cal.filed reports.length) batch
    (reports ++ [report], d)) ([], d)

/-- What a run with these reports comes to. -/
def summaryOf (snapshots triggered : Nat) (reports : List Dispatcher.Report) : Summary where
  snapshots
  triggered
  delivered := (reports.map (·.successful)).sum
  failed := (reports.map (·.failed)).sum

section Passed

variable {cal : Calendar} {e : Engine} {feed : List Snapshot} {p : Passes}

/-- Each snapshot has its pass. -/
theorem Passed.length_events (h : Passed cal e feed p) : p.events.length = feed.length := by
  induction h with
  | start => rfl
  | next h hpass ih => simp [Passes.concat, ih]

theorem Passed.running_eq (h : Passed cal e feed p) : p.engine.running = e.running := by
  induction h with
  | start => rfl
  | @next _ p snapshot _ _ h hpass ih =>
    have hran := Engine.ran_evaluateBetween p.engine (cal.began p.events.length)
      (cal.ended p.events.length) snapshot
    rw [hpass] at hran
    exact hran.running_eq.trans ih

end Passed

/-- What a run comes to after passes, and the dispatches of their events. -/
def outcomeOf (cal : Calendar) (d : Dispatcher) (p : Passes) : Outcome where
  summary := summaryOf p.events.length p.triggered (dispatchEach cal d p.batches).1
  reports := (dispatchEach cal d p.batches).1

/-- The monitor after passes, and the dispatches of their events. -/
def monitorOf (cal : Calendar) (d : Dispatcher) (p : Passes) : Monitor :=
  ⟨p.engine, (dispatchEach cal d p.batches).2.save p.saved⟩

/-- The last batch is dispatched after the others, by what they leave. -/
theorem dispatchEach_concat (cal : Calendar) (d : Dispatcher) (batches : List (List Event))
    (batch : List Event) :
    dispatchEach cal d (batches ++ [batch]) =
      let n := (dispatchEach cal d batches).1.length
      let last := (dispatchEach cal d batches).2.dispatchOn (cal.occasions n) (cal.filed n) batch
      ((dispatchEach cal d batches).1 ++ [last.1], last.2) := by
  rw [dispatchEach, List.foldl_append]
  rfl

theorem batches_concat_nil (p : Passes) (saved : Nat → Instant) (engine : Engine) :
    (p.concat saved [] engine).batches = p.batches := by
  rw [Passes.batches, Passes.concat, List.filter_append]
  exact List.append_nil _

/-- A pass with events gives them as the last batch. -/
theorem batches_concat (p : Passes) (saved : Nat → Instant) {events : List Event}
    (hevents : events ≠ []) (engine : Engine) :
    (p.concat saved events engine).batches = p.batches ++ [events] := by
  rw [Passes.batches, Passes.concat, List.filter_append]
  cases events with
  | nil => exact absurd rfl hevents
  | cons e events => rfl

/-- The events of a pass are counted. -/
theorem triggered_concat (p : Passes) (saved : Nat → Instant) (events : List Event)
    (engine : Engine) : (p.concat saved events engine).triggered = p.triggered + events.length := by
  simp [Passes.triggered, Passes.concat]

/-- A run is its passes, and its dispatches one after the other. -/
theorem runOn_of_passed {cal : Calendar} {m : Monitor} {feed : List Snapshot} {p : Passes}
    (h : Passed cal m.engine feed p) (rest : List Snapshot) :
    runOn cal m (feed ++ rest) =
      runFromOn cal (outcomeOf cal m.dispatcher p) (monitorOf cal m.dispatcher p) rest := by
  -- the last of the passes is the first snapshot of what is left of the run
  induction h generalizing rest with
  | start =>
    rw [monitorOf, dispatchEach, Passes.batches, List.filter_nil, List.foldl_nil,
      Dispatcher.save_nil]
    rfl
  | @next feed p snapshot events engine h hpass ih =>
    rw [List.append_assoc, ih, List.singleton_append, runFromOn]
    dsimp only [monitorOf, outcomeOf, summaryOf]
    rw [hpass]
    cases events with
    | nil =>
      dsimp only
      rw [batches_concat_nil, triggered_concat]
      simp [Passes.concat, Engine.conditionsOf, Summary.observed]
    | cons e events =>
      dsimp only
      -- the conditions of earlier events were saved before this dispatch, which does not matter
      rw [saveConditions_eq, batches_concat p _ (List.cons_ne_nil e events), dispatchEach_concat,
        triggered_concat]
      dsimp only
      rw [← Dispatcher.save_append, Dispatcher.dispatchOn_save]
      simp [Passes.concat, Summary.observed, Summary.dispatched]

/-- A run over passes that all give their events comes to these and their dispatches. -/
theorem runOn_eq {cal : Calendar} {m : Monitor} {feed : List Snapshot} {p : Passes}
    (h : Passed cal m.engine feed p) :
    runOn cal m feed = (outcomeOf cal m.dispatcher p, monitorOf cal m.dispatcher p) := by
  rw [← List.append_nil feed, runOn_of_passed h]
  rfl

/-- Where nothing leaves the range of decimals and dates, the next pass gives its events as well. -/
theorem Passed.exists_pass {cal : Calendar} {m : Monitor} {feed rest : List Snapshot} {p : Passes}
    {snapshot : Snapshot} (h : Passed cal m.engine feed p) (hrunning : m.engine.running = true)
    (hrange : (runOn cal m (feed ++ snapshot :: rest)).1.overflowed = false) :
    ∃ events engine, p.engine.evaluateBetween (cal.began p.events.length)
      (cal.ended p.events.length) snapshot = (.ok events, engine) := by
  have hran := Engine.ran_evaluateBetween p.engine (cal.began p.events.length)
    (cal.ended p.events.length) snapshot
  rw [runOn_of_passed h, runFromOn] at hrange
  dsimp only [monitorOf, outcomeOf, summaryOf] at hrange
  generalize p.engine.evaluateBetween _ _ snapshot = result at hran hrange ⊢
  obtain ⟨result, engine⟩ := result
  -- otherwise the run would end here, with an overflow
  have hresult : result ≠ .error .overflow := by
    rintro rfl
    simp at hrange
  obtain ⟨events, rfl⟩ := hran.exists_events (h.running_eq.trans hrunning) hresult
  exact ⟨events, engine, rfl⟩

end Monitor

/-! ## How much is sent -/

/-- What is at the positions of a list. -/
theorem map_getElem?_range {α : Type*} (xs : List α) :
    (List.range xs.length).map (fun i => xs[i]?) = xs.map some := by
  refine List.ext_getElem? fun i => ?_
  rw [List.getElem?_map, List.getElem?_map]
  by_cases hi : i < xs.length
  · simp [hi]
  · rw [List.getElem?_eq_none (by simpa using hi), List.getElem?_eq_none (by simpa using hi)]
    rfl

theorem Outlet.route_send (o : Outlet) (lib : Template.Library) (now : Instant) (w : World)
    (id : Uuid) (e : Event) : (o.send lib now w id e).2.route = o.route := by
  unfold send
  cases o.write lib now id e <;> rfl

namespace Dispatcher

theorem route_sendEach (lib : Template.Library) (ids : Nat → Uuid) (occasions : Nat → Occasion)
    (es : List (Nat × Event)) (o : Outlet) :
    (sendEach lib ids occasions es o).2.route = o.route := by
  induction es generalizing o with
  | nil => rfl
  | cons e es ih => exact (ih _).trans (o.route_send _ _ _ _ _)

/-- How many outlets accept an event. -/
def reach (d : Dispatcher) (e : Event) : Nat := d.outlets.countP fun o => o.route.accepts e

section DispatchOn

variable {d : Dispatcher} (occasions : Nat → Nat → Occasion) (filed : Nat → Instant)
  (events : List Event)

theorem closed_dispatchOn (d : Dispatcher) :
    (d.dispatchOn occasions filed events).2.closed = d.closed := by
  unfold dispatchOn
  split <;> rfl

/-- A dispatch leaves the routes. -/
theorem reach_dispatchOn (d : Dispatcher) (e : Event) :
    (d.dispatchOn occasions filed events).2.reach e = d.reach e := by
  unfold dispatchOn
  split
  next => rfl
  next =>
    have hroutes (os : List Outlet) (f : Nat → Outlet → Outlet)
        (hf : ∀ i o, (f i o).route = o.route) :
        (os.mapIdx f).countP (fun o => o.route.accepts e) =
          os.countP fun o => o.route.accepts e := by
      induction os generalizing f with
      | nil => rfl
      | cons o os ih =>
        rw [List.mapIdx_cons, List.countP_cons, List.countP_cons, hf,
          ih (fun i => f (i + 1)) fun i => hf (i + 1)]
    exact hroutes _ _ fun lane o => route_sendEach ..

/-- A report has a result for each event and each outlet that accepts it. -/
theorem length_deliveries_dispatchOn (hopen : d.closed = false) :
    (d.dispatchOn occasions filed events).1.deliveries.length = (events.map d.reach).sum := by
  have hlanes (position : Nat) :
      ((List.range d.outlets.length).filterMap fun lane =>
        d.sent? events occasions lane position).length =
          (events[position]?).elim 0 d.reach := by
    -- lanes with a result are outlets that accept the event
    calc
      _ = (List.range d.outlets.length).countP fun lane =>
          (d.sent? events occasions lane position).isSome := List.length_filterMap_eq_countP
      _ = ((List.range d.outlets.length).map fun lane => d.outlets[lane]?).countP fun o =>
          o.any fun o => (events[position]?).any o.route.accepts := by
        rw [List.countP_map]
        refine List.countP_congr fun lane hlane => ?_
        have hlt : lane < d.outlets.length := List.mem_range.1 hlane
        have ho : d.outlets[lane]? = some d.outlets[lane] := List.getElem?_eq_getElem hlt
        rw [isSome_sent?_iff ho, Function.comp_apply, ho, Option.any_some, Option.any_eq_true]
      _ = d.outlets.countP fun o => (events[position]?).any o.route.accepts := by
        rw [map_getElem?_range, List.countP_map]
        rfl
      _ = (events[position]?).elim 0 d.reach := by
        cases events[position]? <;> simp [reach]
  rw [dispatchOn, hopen, if_neg Bool.false_ne_true]
  dsimp only
  rw [List.length_flatMap, List.map_congr_left fun position _ => hlanes position]
  have hevents := congrArg (List.map fun e => Option.elim e 0 d.reach) (map_getElem?_range events)
  simp only [List.map_map, Function.comp_def, Option.elim_some] at hevents
  rw [hevents]

end DispatchOn

/-- Every delivery of a report arrived or failed. -/
theorem Report.successful_add_failed (r : Report) :
    r.successful + r.failed = r.deliveries.length :=
  Nat.add_sub_cancel' (List.length_filter_le ..)

end Dispatcher

namespace Monitor

section DispatchEach

variable (cal : Calendar) (d : Dispatcher) (batches : List (List Event))

theorem closed_dispatchEach : (dispatchEach cal d batches).2.closed = d.closed := by
  induction batches using List.reverseRecOn with
  | nil => rfl
  | append_singleton batches batch ih =>
    rw [dispatchEach_concat]
    exact (Dispatcher.closed_dispatchOn _ _ batch _).trans ih

/-- Dispatches leave the routes. -/
theorem reach_dispatchEach (e : Event) : (dispatchEach cal d batches).2.reach e = d.reach e := by
  induction batches using List.reverseRecOn with
  | nil => rfl
  | append_singleton batches batch ih =>
    rw [dispatchEach_concat]
    exact (Dispatcher.reach_dispatchOn _ _ batch _ e).trans ih

/-- The messages that arrived and those that did not are those of all events in all outlets that
accept them. -/
theorem delivered_add_failed (hopen : d.closed = false) (snapshots triggered : Nat) :
    let summary := summaryOf snapshots triggered (dispatchEach cal d batches).1
    summary.delivered + summary.failed = (batches.flatten.map d.reach).sum := by
  induction batches using List.reverseRecOn with
  | nil => rfl
  | append_singleton batches batch ih =>
    dsimp only [summaryOf] at ih ⊢
    rw [dispatchEach_concat]
    dsimp only
    have hclosed := (closed_dispatchEach cal d batches).trans hopen
    -- earlier dispatches leave the routes, so that an event still reaches as many outlets
    have hlength := Dispatcher.length_deliveries_dispatchOn
      (cal.occasions (dispatchEach cal d batches).1.length)
      (cal.filed (dispatchEach cal d batches).1.length) batch hclosed
    rw [← Dispatcher.Report.successful_add_failed,
      funext fun e => reach_dispatchEach cal d batches e] at hlength
    simp only [List.flatten_append, List.flatten_singleton, List.map_append, List.sum_append,
      List.map_singleton, List.sum_singleton, ← ih, ← hlength]
    omega

end DispatchEach

/-- Empty batches have no events. -/
theorem flatten_batches (p : Passes) : p.batches.flatten = p.events.flatten :=
  List.flatten_filter_not_isEmpty

end Monitor

end MarketAlerts
