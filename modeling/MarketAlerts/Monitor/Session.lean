import MarketAlerts.Dispatch.Session
import MarketAlerts.Engine.Session
import MarketAlerts.Monitor.Basic

/-!
# Evaluation and delivery side by side

Passes and dispatches need not wait for each other: the events of passes are put into a queue, out
of which they are dispatched in their order. Only when the queue is full the next pass has to wait.
A `Session` is a run of the monitor in which the two sides take their steps in any order, while the
engine can be stopped from outside.

The evaluating side calls for a pass over the next snapshot and waits for its events, saves their
conditions one after the other and puts the events into the queue. The dispatching side takes the
batch that has waited longest and calls for its dispatch, whose lanes make their steps; once there
is a report it takes the next one.
-/

namespace MarketAlerts.Monitor

/-- How many batches of events can wait. -/
def backlog : Nat := 64

/-- What the evaluating side is about to do. -/
inductive Evaluator where
  /-- To call for a pass over the next snapshot. -/
  | ready
  /-- To take the answer to a call for a pass. -/
  | waiting (ticket : Nat)
  /-- To save the conditions of the last events of a batch. -/
  | saving (batch left : List Event)
  /-- To put a batch into the queue. -/
  | offering (batch : List Event)
  /-- Nothing more. -/
  | ended

/-- A run of the monitor. -/
structure Session where
  /-- The engine, and the calls for passes and stops. -/
  engine : Engine.Session
  /-- The dispatcher, and the calls for dispatches. -/
  dispatcher : Dispatcher.Session
  /-- The snapshots to come. -/
  feed : List Snapshot
  /-- The evaluating side. -/
  evaluator : Evaluator := .ready
  /-- The batches that wait to be dispatched. -/
  queue : List (List Event) := []
  /-- The call for the dispatch that is under way. -/
  dispatching : Option Nat := none
  /-- What the run comes to so far. -/
  outcome : Outcome := {}

/-- A step of a run. -/
inductive Action where
  /-- The evaluating side does what it is about to do. -/
  | evaluate
  /-- The first call to the engine makes its next step; a pass over all at once takes up the
  condition at `pick`. -/
  | advance (pick : Nat)
  /-- The engine is stopped. -/
  | stop
  /-- The dispatching side takes the next batch. -/
  | take
  /-- A lane of the dispatch that is under way makes its next step. -/
  | deliver (lane : Nat) (w : World)
  /-- The dispatching side takes the report of a dispatch that has nothing left to do, whose results
  are filed one after the other, at these times. -/
  | report (filed : Nat → Instant)

namespace Session

/-- A run at its beginning. -/
def start (m : Monitor) (feed : List Snapshot) : Session where
  engine := ⟨m.engine, [], 0⟩
  dispatcher := ⟨m.dispatcher, []⟩
  feed

/-- The engine and the dispatcher as they are. -/
def monitor (s : Session) : Monitor := ⟨s.engine.engine, s.dispatcher.dispatcher⟩

/-- The evaluating side takes the end of a pass. Without events the next pass follows at once. -/
def receive (s : Session) : Except Engine.Error (List Event) → Session
  | .ok events => { s with
      evaluator := if events.isEmpty then .ready else .saving events events
      outcome.summary.triggered := s.outcome.summary.triggered + events.length }
  | .error e => { s with evaluator := .ended, outcome.overflowed := e = .overflow }

/-- A call for a pass over the next snapshot, which may be turned away at once. -/
def callPass (s : Session) (snapshot : Snapshot) (feed : List Snapshot) : Session :=
  let (ticket, answer, engine) := s.engine.requestPass snapshot
  let s := { s with
    engine, feed, evaluator := .waiting ticket
    outcome.summary.snapshots := s.outcome.summary.snapshots + 1 }
  match answer with
  | some (.pass result) => s.receive result
  | _ => s

/-- Saves the condition of an event, as it is now. -/
def saveCondition (s : Session) (now : Instant) (e : Event) : Session :=
  { s with dispatcher.dispatcher := (s.monitor.saveCondition now e).dispatcher }

/-- The evaluating side does what it is about to do. It waits for the answer to a call, and while
the queue is full. -/
def evaluate (s : Session) (now : Instant) : Session :=
  match s.evaluator with
  | .ready =>
    match s.feed with
    | [] => { s with evaluator := .ended }
    | snapshot :: feed => s.callPass snapshot feed
  | .waiting _ => s
  | .saving batch [] => { s with evaluator := .offering batch }
  | .saving batch (e :: left) => { s.saveCondition now e with evaluator := .saving batch left }
  | .offering batch =>
    -- a full queue holds up the evaluating side until a batch is taken
    if s.queue.length < backlog then
      { s with queue := s.queue ++ [batch], evaluator := .ready }
    else s
  | .ended => s

/-- The first call to the engine makes its next step. -/
def advance (s : Session) (now : Instant) (pick : Nat) : Session :=
  let (answer, engine) := s.engine.advance now pick
  let s := { s with engine }
  match s.evaluator, answer with
  | .waiting ticket, some (answered, .pass result) =>
    -- others call the engine as well, and their answers are not for this run
    if answered = ticket then s.receive result else s
  | _, _ => s

/-- The engine is stopped. -/
def stop (s : Session) : Session := { s with engine := s.engine.requestStop.2.2 }

/-- The dispatching side takes the batch that has waited longest, unless a dispatch is under way. -/
def take (s : Session) : Session :=
  match s.dispatching, s.queue with
  | none, batch :: queue => { s with
      dispatcher := s.dispatcher.call batch
      queue
      dispatching := some s.dispatcher.calls.length }
  | _, _ => s

/-- A lane of the dispatch that is under way makes its next step. -/
def deliver (s : Session) (now : Instant) (lane : Nat) (w : World) : Session :=
  match s.dispatching with
  | some call => { s with dispatcher := s.dispatcher.step now call lane w }
  | none => s

/-- The dispatching side takes the report of the dispatch that is under way, once there is one. -/
def takeReport (s : Session) (filed : Nat → Instant) : Session :=
  match s.dispatching with
  | none => s
  | some call =>
    -- nothing is closed while a lane still has events to send
    let dispatcher := s.dispatcher.close filed call
    match dispatcher.report? call with
    | none => s
    | some report => { s with
        dispatcher
        dispatching := none
        outcome.summary := s.outcome.summary.dispatched report
        outcome.reports := s.outcome.reports ++ [report] }

/-- The run after a step of any kind. What is not possible changes nothing. -/
def apply (s : Session) (now : Instant) : Action → Session
  | .evaluate => s.evaluate now
  | .advance pick => s.advance now pick
  | .stop => s.stop
  | .take => s.take
  | .deliver lane w => s.deliver now lane w
  | .report filed => s.takeReport filed

/-- Whether both sides are done. -/
def isOver (s : Session) : Bool :=
  match s.evaluator with
  | .ended => s.queue.isEmpty && s.dispatching.isNone
  | _ => false

end Session

end MarketAlerts.Monitor
