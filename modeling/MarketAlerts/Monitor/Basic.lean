import MarketAlerts.Dispatch.Basic
import MarketAlerts.Engine.Basic

/-!
# The monitor

The `Monitor` leads snapshots through the engine, and the events of each pass through the
dispatcher. With an audit, the conditions that fired are saved before their events are dispatched.
The run ends when there are no more snapshots or the engine is stopped.
-/

namespace MarketAlerts

namespace Monitor

/-- What a run of the monitor comes to. -/
structure Summary where
  /-- The snapshots that were taken. -/
  snapshots : Nat := 0
  /-- The events. -/
  triggered : Nat := 0
  /-- The messages that arrived. -/
  delivered : Nat := 0
  /-- The messages that did not. -/
  failed : Nat := 0
deriving DecidableEq, Inhabited

namespace Summary

/-- One more snapshot, with so many events. -/
def observed (s : Summary) (events : Nat) : Summary :=
  { s with snapshots := s.snapshots + 1, triggered := s.triggered + events }

/-- One more dispatch. -/
def dispatched (s : Summary) (r : Dispatcher.Report) : Summary :=
  { s with delivered := s.delivered + r.successful, failed := s.failed + r.failed }

end Summary

/-- A run of the monitor. -/
structure Outcome where
  /-- What it comes to. -/
  summary : Summary := {}
  /-- The reports of its dispatches, the newest at the end. -/
  reports : List Dispatcher.Report := []
  /-- Whether a step of a pass left the range of decimals or dates. -/
  overflowed : Bool := false

end Monitor

/-- An engine and a dispatcher. -/
structure Monitor where
  /-- The engine. -/
  engine : Engine := {}
  /-- The dispatcher. -/
  dispatcher : Dispatcher := {}
deriving Inhabited

namespace Monitor

/-- Saves the condition of an event, as it is now. -/
def saveCondition (m : Monitor) (now : Instant) (e : Event) : Monitor :=
  match m.engine.watchlist.get? e.conditionId with
  | none => m
  | some c =>
    { m with dispatcher := {
        m.dispatcher with audit := m.dispatcher.audit.map (·.saveCondition now c) } }

/-- Saves the conditions of events, as they are now, one after the other at these times. -/
def saveConditions (m : Monitor) (saved : Nat → Instant) (events : List Event) : Monitor :=
  events.zipIdx.foldl (fun m (e, i) => m.saveCondition (saved i) e) m

/-- Leads a snapshot through the engine. -/
def observe (m : Monitor) (now : Instant) (s : Snapshot) :
    Except Engine.Error (List Event) × Monitor :=
  let (result, engine) := m.engine.evaluateAll now s
  (result, { m with engine })

/-- Leads events through the dispatcher. -/
def dispatch (m : Monitor) (now : Instant) (w : World) (events : List Event) :
    Dispatcher.Report × Monitor :=
  let (report, dispatcher) := m.dispatcher.dispatch now w events
  (report, { m with dispatcher })

/-- Leads snapshots through the engine and the events of each pass, if there are any, through the
dispatcher, all at one time. -/
def runFrom (now : Instant) (w : World) (o : Outcome) (m : Monitor) :
    List Snapshot → Outcome × Monitor
  | [] => (o, m)
  | s :: rest =>
    match m.observe now s with
    | (.error e, m) =>
      -- a pass that fails is counted, and ends the run
      ({ o with summary := o.summary.observed 0, overflowed := e = .overflow }, m)
    | (.ok [], m) => runFrom now w { o with summary := o.summary.observed 0 } m rest
    | (.ok events, m) =>
      let (report, m) := (m.saveConditions (fun _ => now) events).dispatch now w events
      runFrom now w { o with
        summary := (o.summary.observed events.length).dispatched report
        reports := o.reports ++ [report] } m rest

/-- Runs the monitor over a feed of snapshots. -/
def run (m : Monitor) (now : Instant) (w : World) (feed : List Snapshot) : Outcome × Monitor :=
  runFrom now w {} m feed

end Monitor

end MarketAlerts
