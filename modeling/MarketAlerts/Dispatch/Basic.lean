import MarketAlerts.Audit.Basic
import MarketAlerts.Channel.Probe
import MarketAlerts.Dispatch.Route

/-!
# The dispatcher

The `Dispatcher` hands events to the outlets whose routes accept them. Every outlet gets its events
one at a time and in their order; what becomes of them there has no effect on other outlets. The
report lists what became of each event in each outlet, by event and then by outlet.

With an audit, the dispatcher records first the events and then what became of them. Rows that the
audit refuses are left out.
-/

namespace MarketAlerts

namespace Dispatcher

/-- Why the dispatcher refuses a request. -/
inductive Error where
  /-- There is no channel of this name. -/
  | unknownChannel (name : String)
  /-- There is a channel of this name already. -/
  | duplicateChannel (name : String)
  /-- The channel refuses it. -/
  | channel (cause : Channel.Error)
deriving DecidableEq

/-- The text of an error. -/
def Error.message : Error → String
  | .unknownChannel name => "no channel named " ++ name
  | .duplicateChannel name => "channel " ++ name ++ " is already registered"
  | .channel _ => "channel operation failed"

/-- What became of the events of a dispatch. -/
structure Report where
  /-- What became of each event in each outlet that accepts it. -/
  deliveries : List Sent := []
  /-- Whether the dispatcher was shut down before the end. -/
  cancelled : Bool := false

namespace Report

/-- The number of messages that arrived. -/
def successful (r : Report) : Nat := (r.deliveries.filter (·.success)).length

/-- The number of those that did not. -/
def failed (r : Report) : Nat := r.deliveries.length - r.successful

end Report

/-- What became of the event at a position in the outlet at a position. -/
structure Placed where
  /-- The position of the event. -/
  position : Nat
  /-- The position of the outlet. -/
  lane : Nat
  /-- What became of it. -/
  sent : Sent

/-- Whether one place comes before another, or is the same: by event, and then by outlet. -/
def Placed.le (a b : Placed) : Bool :=
  a.position < b.position || (a.position == b.position && a.lane ≤ b.lane)

/-- What became of events, in the order of a report. -/
def arrange (placed : List Placed) : List Sent := (placed.mergeSort Placed.le).map (·.sent)

end Dispatcher

/-- The outlets and what they share. -/
structure Dispatcher where
  /-- The outlets in the order of their registration. -/
  outlets : List Outlet := []
  /-- The templates of the messages. -/
  templates : Template.Library := {}
  /-- Where events and deliveries are recorded, if anywhere. -/
  audit : Option Audit := none
  /-- Whether it is shut down. -/
  closed : Bool := false
  /-- Where the identifiers of messages come from. -/
  supply : Uuid.Supply := ⟨0⟩
deriving Inhabited

namespace Dispatcher

/-- The channels in the order of their registration. -/
def channels (d : Dispatcher) : List Channel := d.outlets.map (·.channel)

/-- The channel of a name. -/
def channel? (d : Dispatcher) (name : String) : Option Channel :=
  d.channels.find? fun c => c.name = name

/-- The channel of a name, which must be there. -/
def channel (d : Dispatcher) (name : String) : Except Error Channel :=
  match d.channel? name with
  | some c => .ok c
  | none => .error (.unknownChannel name)

/-- Registers a channel. -/
def add (d : Dispatcher) (c : Channel) (route : Route) : Except Error Dispatcher :=
  if (d.channel? c.name).isSome then .error (.duplicateChannel c.name)
  else .ok { d with outlets := d.outlets ++ [⟨c, route⟩] }

/-- Removes a channel; also gives it back. -/
def remove (d : Dispatcher) (name : String) : Except Error (Channel × Dispatcher) := do
  let c ← d.channel name
  return (c, { d with outlets := d.outlets.filter fun o => o.channel.name ≠ name })

/-- The dispatcher with the channel of a name replaced. -/
def setChannel (d : Dispatcher) (name : String) (c : Channel) : Dispatcher :=
  { d with outlets := d.outlets.map fun o =>
      if o.channel.name = name then { o with channel := c } else o }

/-- Switches a channel on or off. -/
def setEnabled (d : Dispatcher) (name : String) (enabled : Bool) : Except Error Dispatcher := do
  return d.setChannel name ((← d.channel name).setEnabled enabled)

/-- Applies a patch to the settings of a channel. -/
def update (d : Dispatcher) (name : String) (patch : Json) : Except Error Dispatcher := do
  return d.setChannel name (← ((← d.channel name).update patch).mapError .channel)

/-- What became of all messages. -/
def totals (d : Dispatcher) : Channel.Tally :=
  (d.channels.map (·.tally)).foldl Channel.Tally.add {}

/-- The dispatcher with all its channels changed. -/
def mapChannels (d : Dispatcher) (f : Channel → Channel) : Dispatcher :=
  { d with outlets := d.outlets.map (·.mapChannel f) }

/-- Forgets what became of messages so far. -/
def resetTallies (d : Dispatcher) : Dispatcher := d.mapChannels Channel.resetTally

/-- Lets all channels go of what they keep. -/
def cleanup (d : Dispatcher) : Dispatcher := d.mapChannels Channel.cleanup

/-- Ends this and all later dispatches. -/
def shutdown (d : Dispatcher) : Dispatcher := { d with closed := true }

/-- Records events in the audit. -/
def recordEvents (audit : Audit) (events : List Event) : Audit :=
  events.foldl (fun a e => (a.recordEvent e).toOption.getD a) audit

/-- What is recorded of a delivery. -/
def deliveryRecord (now : Instant) (s : Sent) : Audit.DeliveryRecord where
  eventId := s.eventId
  messageId := s.messageId
  channel := s.channel
  success := s.success
  error := s.error
  recordedAt := now

/-- What became of events, each with the time at which it is filed, one after the other. -/
def stamped (filed : Nat → Instant) (deliveries : List Sent) : List (Instant × Sent) :=
  deliveries.mapIdx fun i s => (filed i, s)

/-- Records deliveries in the audit, each at its time. -/
def recordDeliveries (audit : Audit) (filed : List (Instant × Sent)) : Audit :=
  filed.foldl (fun a (now, s) => (a.recordDelivery (deliveryRecord now s)).toOption.getD a) audit

/-- The events that a route accepts, with their positions. -/
def accepted (r : Route) (events : List Event) : List (Nat × Event) :=
  (events.zipIdx.filter fun (e, _) => r.accepts e).map fun (e, position) => (position, e)

/-- The identifier of the message for the event at a position in the outlet at a position. -/
def messageId (supply : Uuid.Supply) (lanes position lane : Nat) : Uuid :=
  (supply.drop (position * lanes + lane)).head

/-- Sends events through an outlet, one after the other. -/
def sendAll (lib : Template.Library) (now : Instant) (w : World) (ids : Nat → Uuid) :
    List (Nat × Event) → Outlet → List (Nat × Sent) × Outlet
  | [], o => ([], o)
  | (position, e) :: rest, o =>
    let (sent, o) := o.send lib now w (ids position) e
    let (others, o) := sendAll lib now w ids rest o
    ((position, sent) :: others, o)

/-- Hands events to the outlets whose routes accept them, all at one time. A dispatcher that is shut
down does nothing. -/
def dispatch (d : Dispatcher) (now : Instant) (w : World) (events : List Event) :
    Report × Dispatcher :=
  if d.closed then ({ cancelled := true }, d)
  else
    let lanes := d.outlets.length
    -- outlets send side by side and do not see each other
    let runs := d.outlets.zipIdx.map fun (o, lane) =>
      (lane, sendAll d.templates now w (messageId d.supply lanes · lane)
        (accepted o.route events) o)
    let deliveries := arrange (runs.flatMap fun (lane, sent, _) =>
      sent.map fun (position, s) => ⟨position, lane, s⟩)
    ({ deliveries }, { d with
      outlets := runs.map fun (_, _, o) => o
      audit := d.audit.map fun a =>
        recordDeliveries (recordEvents a events) (stamped (fun _ => now) deliveries)
      supply := d.supply.drop (events.length * lanes) })

end Dispatcher

end MarketAlerts
