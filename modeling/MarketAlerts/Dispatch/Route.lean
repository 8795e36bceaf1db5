import MarketAlerts.Channel.Basic

/-!
# Routes

A `Route` says which events go through a channel, and with which template. An `Outlet` is a
channel with its route.
-/

namespace MarketAlerts

/-- Which events a channel gets and how they are written. -/
structure Route where
  /-- The least priority of an event. -/
  minPriority : Priority := .low
  /-- The conditions whose events go through; if there are none, those of all conditions do. -/
  conditions : List String := []
  /-- The template of the messages. -/
  template : String := "default"
deriving DecidableEq, Inhabited

/-- Whether an event goes this way. -/
def Route.accepts (r : Route) (e : Event) : Bool :=
  r.minPriority.level ≤ e.priority.level
    && (r.conditions.isEmpty || r.conditions.contains e.conditionId)

/-- A channel with its route. -/
structure Outlet where
  /-- The channel. -/
  channel : Channel
  /-- Its route. -/
  route : Route := {}
deriving DecidableEq, Inhabited

/-- What became of an event in a channel. -/
structure Sent where
  /-- The event. -/
  eventId : Uuid
  /-- The channel. -/
  channel : String
  /-- The message, if it could be written. -/
  messageId : Option Uuid
  /-- What was done for it, unless it was refused. -/
  errand : Option Channel.Errand
  /-- Why the message did not arrive, if it did not. -/
  error : Option String

namespace Sent

/-- Whether the message arrived. -/
def success (r : Sent) : Bool := r.error.isNone

/-- An event for which no message could be written. -/
def unwritten (e : Event) (channel : String) (fault : Template.Error) : Sent where
  eventId := e.id
  channel
  messageId := none
  errand := none
  error := some fault.message

/-- An event whose message was sent, or refused. -/
def ofAttempt (e : Event) (channel : String) (m : Message) (a : Channel.Attempt) : Sent where
  eventId := e.id
  channel
  messageId := some m.id
  errand := a.errand
  error := match a.result with
    | .ok _ => none
    | .error fault => some fault.message

end Sent

namespace Outlet

/-- The outlet with its channel changed. -/
def mapChannel (o : Outlet) (f : Channel → Channel) : Outlet := { o with channel := f o.channel }

/-- The message for an event. -/
def write (o : Outlet) (lib : Template.Library) (now : Instant) (id : Uuid) (e : Event) :
    Except Template.Error Message :=
  Message.ofEvent lib o.route.template e o.channel.name o.channel.settings.medium id now

/-- Sends an event through the channel. One for which no message can be written counts as
failed. -/
def send (o : Outlet) (lib : Template.Library) (now : Instant) (w : World) (id : Uuid)
    (e : Event) : Sent × Outlet :=
  match o.write lib now id e with
  | .error fault => (.unwritten e o.channel.name fault, o.mapChannel (·.count false))
  | .ok m =>
    let (attempt, channel) := o.channel.send w m
    (.ofAttempt e o.channel.name m attempt, { o with channel })

end Outlet

end MarketAlerts
