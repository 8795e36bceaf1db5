import MarketAlerts.Dispatch.Basic

/-!
# Dispatches at the same time

A dispatch takes its time, and meanwhile other dispatches can run, channels can be changed and the
dispatcher can be shut down. A `Session` is a dispatcher with the dispatches that are under way.
In a dispatch every outlet has a lane. The next event of a lane is first written, with the markup
that the channel has at that moment; then it is begun, with the settings that the channel has at
that moment; and at last it is finished, when the world has answered. Then the next event of the
lane is up.

A dispatch that sees a shutdown breaks off: no further events are taken up, what is under way may
still go on, and when the dispatch is closed the rest is dropped.
-/

namespace MarketAlerts.Dispatcher

/-- How far an event is in its lane. -/
inductive Stage where
  /-- It is up next. -/
  | queued
  /-- Its message is written. -/
  | written (m : Message)
  /-- Its message is being sent. -/
  | begun (m : Message) (d : Channel.Delivery)

/-- An event in its lane. -/
structure Current where
  /-- The position of the event. -/
  position : Nat
  /-- The event. -/
  event : Event
  /-- How far it is. -/
  stage : Stage := .queued

/-- The events of an outlet in a dispatch. -/
structure Lane where
  /-- The one that is up. -/
  current : Option Current
  /-- Those that come after it. -/
  upcoming : List (Nat × Event)

/-- A dispatch under way. -/
structure Run where
  /-- The lanes of the outlets. -/
  lanes : List Lane
  /-- Where the identifiers of its messages come from. -/
  supply : Uuid.Supply
  /-- What became of events so far, in the order in which that was known. -/
  placed : List Placed := []
  /-- Whether it has broken off. -/
  broken : Bool := false

/-- A call for a dispatch. -/
inductive Call where
  /-- It is under way. -/
  | running (r : Run)
  /-- It is over. -/
  | done (report : Report)

/-- A dispatcher and the dispatches that were called for. -/
structure Session where
  /-- The dispatcher. -/
  dispatcher : Dispatcher
  /-- The calls in their order. -/
  calls : List Call := []

namespace Lane

/-- The lane of these events at its beginning. -/
def ofEvents : List (Nat × Event) → Lane
  | [] => ⟨none, []⟩
  | (position, event) :: upcoming => ⟨some { position, event }, upcoming⟩

/-- The lane when the event that was up is done with. -/
def next (l : Lane) (broken : Bool) : Lane := if broken then ⟨none, []⟩ else ofEvents l.upcoming

/-- The lane with its event at another stage. -/
def setStage (l : Lane) (stage : Stage) : Lane :=
  { l with current := l.current.map fun c => { c with stage } }

end Lane

namespace Run

/-- The dispatch when it is known what became of the event that was up in a lane. -/
def settle (r : Run) (lane : Nat) (c : Current) (sent : Sent) : Run :=
  { r with
    lanes := r.lanes.modify lane (·.next r.broken)
    placed := r.placed ++ [⟨c.position, lane, sent⟩] }

/-- The dispatch with the event of a lane at another stage. -/
def setStage (r : Run) (lane : Nat) (stage : Stage) : Run :=
  { r with lanes := r.lanes.modify lane (·.setStage stage) }

/-- Whether there is nothing left to do. -/
def isIdle (r : Run) : Bool := r.lanes.all fun l => l.current.isNone

/-- One step of the event that is up in a lane, and its outlet after it. The world matters only for
an event that is being sent. -/
def step (r : Run) (lib : Template.Library) (now : Instant) (w : World) (lane : Nat) (o : Outlet)
    (c : Current) : Run × Outlet :=
  match c.stage with
  -- The markup is that of the channel's settings now.
  | .queued =>
    match o.write lib now (messageId r.supply r.lanes.length c.position lane) c.event with
    | .error fault =>
      (r.settle lane c (.unwritten c.event o.channel.name fault), o.mapChannel (·.count false))
    | .ok m => (r.setStage lane (.written m), o)
  -- The delivery follows the channel's settings now, which may be others.
  | .written m =>
    match o.channel.begin m with
    | .error fault =>
      (r.settle lane c (.ofAttempt c.event o.channel.name m ⟨none, .error fault⟩),
        o.mapChannel (·.count false))
    | .ok d => (r.setStage lane (.begun m d), o)
  -- What was begun ends as it was begun.
  | .begun m d =>
    let (result, channel) := o.channel.finish d (d.ending w)
    (r.settle lane c (.ofAttempt c.event o.channel.name m ⟨some d.errand, result⟩),
      { o with channel })

end Run

/-- A step of a session. -/
inductive Action where
  /-- A dispatch is called for. -/
  | call (events : List Event)
  /-- The event that is up in a lane of a call makes its next step. -/
  | step (call lane : Nat) (w : World)
  /-- A call sees that the dispatcher is shut down. -/
  | breakOff (call : Nat)
  /-- A call that has broken off or has nothing left to do is over. What became of its events is
  filed one after the other, at these times. -/
  | close (call : Nat) (filed : Nat → Instant)
  /-- The dispatcher is shut down. -/
  | shutdown
  /-- A channel is switched on or off. -/
  | setEnabled (channel : String) (enabled : Bool)
  /-- The settings of a channel are changed. -/
  | update (channel : String) (patch : Json)

namespace Session

/-- A dispatch is called for. -/
def call (s : Session) (events : List Event) : Session :=
  let d := s.dispatcher
  if d.closed then { s with calls := s.calls ++ [.done { cancelled := true }] }
  else
    let run : Run := {
      lanes := d.outlets.map fun o => .ofEvents (accepted o.route events)
      supply := d.supply }
    { dispatcher := { d with
        audit := d.audit.map (recordEvents · events)
        supply := d.supply.drop (events.length * d.outlets.length) }
      calls := s.calls ++ [.running run] }

/-- The run of a call, if it is under way. -/
def run? (s : Session) (call : Nat) : Option Run :=
  match s.calls[call]? with
  | some (.running r) => some r
  | _ => none

/-- The session with another run of a call. -/
def setRun (s : Session) (call : Nat) (r : Run) : Session :=
  { s with calls := s.calls.set call (.running r) }

/-- The event that is up in a lane of a run, with its outlet. -/
def up? (s : Session) (r : Run) (lane : Nat) : Option (Outlet × Current) := do
  return (← s.dispatcher.outlets[lane]?, ← (← r.lanes[lane]?).current)

/-- The event that is up in a lane makes its next step. -/
def step (s : Session) (now : Instant) (call lane : Nat) (w : World) : Session :=
  match s.run? call with
  | none => s
  | some r =>
    match s.up? r lane with
    | none => s
    | some (o, c) =>
      let (r, o) := r.step s.dispatcher.templates now w lane o c
      { dispatcher := { s.dispatcher with outlets := s.dispatcher.outlets.set lane o }
        calls := s.calls.set call (.running r) }

/-- A call sees that the dispatcher is shut down. -/
def breakOff (s : Session) (call : Nat) : Session :=
  match s.run? call with
  | some r => if s.dispatcher.closed then s.setRun call { r with broken := true } else s
  | none => s

/-- A call is over: what became of its events is recorded, and the rest is dropped. -/
def close (s : Session) (filed : Nat → Instant) (call : Nat) : Session :=
  match s.run? call with
  | none => s
  | some r =>
    if r.broken || r.isIdle then
      let deliveries := arrange r.placed
      { dispatcher := { s.dispatcher with
          audit := s.dispatcher.audit.map (recordDeliveries · (stamped filed deliveries)) }
        calls := s.calls.set call (.done { deliveries, cancelled := r.broken }) }
    else s

/-- A change of the dispatcher; nothing happens if it is refused. -/
def change (s : Session) (f : Dispatcher → Except Error Dispatcher) : Session :=
  { s with dispatcher := (f s.dispatcher).toOption.getD s.dispatcher }

/-- The session after a step of any kind. What is not possible changes nothing. -/
def apply (s : Session) (now : Instant) : Action → Session
  | .call events => s.call events
  | .step call lane w => s.step now call lane w
  | .breakOff call => s.breakOff call
  | .close call filed => s.close filed call
  | .shutdown => { s with dispatcher := s.dispatcher.shutdown }
  | .setEnabled channel enabled => s.change (·.setEnabled channel enabled)
  | .update channel patch => s.change (·.update channel patch)

/-- The session after these steps. -/
def applyAll (s : Session) (now : Instant) (actions : List Action) : Session :=
  actions.foldl (fun s a => s.apply now a) s

/-- Whether the event that is up in a lane waits for an answer that does not come in time. -/
def isStalled (s : Session) (call lane : Nat) (w : World) : Bool :=
  ((s.run? call).bind fun r => s.up? r lane).all fun (_, c) =>
    match c.stage with
    | .begun _ d => d.ending w = .late
    | _ => false

/-- Lets a lane go on until it is done or waits for an answer that does not come, in at most `fuel`
steps. -/
def advance (now : Instant) (call lane : Nat) (w : World) : (fuel : Nat) → Session → Session
  | 0, s => s
  | fuel + 1, s =>
    if s.isStalled call lane w then s
    else advance now call lane w fuel (s.step now call lane w)

/-- Lets all lanes of a call go on until they are done or wait for an answer that does not come. An
event makes three steps at most. -/
def advanceAll (s : Session) (now : Instant) (call events : Nat) (w : World) : Session :=
  (List.range s.dispatcher.outlets.length).foldl
    (fun s lane => advance now call lane w (3 * events) s) s

/-- The report of a call, once it is over. -/
def report? (s : Session) (call : Nat) : Option Report :=
  match s.calls[call]? with
  | some (.done report) => some report
  | _ => none

end Session

/-- A dispatch that is shut down as soon as nothing is left but to wait for answers that do not
come. -/
def dispatchUntilStalled (d : Dispatcher) (now : Instant) (w : World) (events : List Event) :
    Report × Dispatcher :=
  let s := (Session.mk d []).call events
  let s := s.advanceAll now 0 events.length w
  let s := (((s.close (fun _ => now) 0).apply now .shutdown).breakOff 0).close (fun _ => now) 0
  ((s.report? 0).getD {}, s.dispatcher)

end MarketAlerts.Dispatcher
