import MarketAlerts.Channel.Delivery
import MarketAlerts.Channel.Settings.Json

/-!
# Channels

A `Channel` sends messages. `begin` says what is to be done for a message, or refuses it;
`finish` takes in how that ended. Whatever becomes of a message, it is counted exactly once, and
only a delivered message is shown.

Shown messages are kept, the newest at the end, and one listener can be told of them. It is told
of the newest messages only, once too many wait, and then of the number of those it missed.
-/

namespace MarketAlerts

namespace Channel

/-- Why a channel refuses something, or fails at it. -/
inductive Error where
  /-- The channel is switched off. -/
  | disabled (channel : String)
  /-- Its settings cannot be used. -/
  | misconfigured (channel reason : String)
  /-- The message did not arrive. -/
  | undelivered (channel : String)
  /-- There was no answer in time. -/
  | timedOut (channel : String)
  /-- The settings cannot be read. -/
  | unreadable (channel : String)
  /-- There is no such kind of channel. -/
  | unknownKind (kind : String)
deriving DecidableEq

/-- The text of an error. -/
def Error.message : Error → String
  | .disabled channel => "channel " ++ channel ++ " is disabled"
  | .misconfigured channel reason =>
    "channel " ++ channel ++ " is missing required configuration: " ++ reason
  | .undelivered channel => "delivery through " ++ channel ++ " failed"
  | .timedOut channel => "delivery through " ++ channel ++ " timed out"
  | .unreadable channel => "invalid configuration for " ++ channel
  | .unknownKind kind => "unknown channel kind: " ++ kind

/-- How many messages came to which end. -/
structure Tally where
  /-- All messages. -/
  total : Nat := 0
  /-- Those that arrived. -/
  successful : Nat := 0
  /-- Those that did not. -/
  failed : Nat := 0
deriving DecidableEq, Inhabited

namespace Tally

/-- One more message. -/
def count (t : Tally) (succeeded : Bool) : Tally :=
  if succeeded then { t with total := t.total + 1, successful := t.successful + 1 }
  else { t with total := t.total + 1, failed := t.failed + 1 }

/-- The messages of both. -/
def add (s t : Tally) : Tally :=
  ⟨s.total + t.total, s.successful + t.successful, s.failed + t.failed⟩

/-- The share of messages that arrived, in percent. -/
def successRate (t : Tally) : Float :=
  if t.total = 0 then 0 else Float.ofNat t.successful / Float.ofNat t.total * 100

end Tally

/-- The last so many elements. -/
def newest (n : Nat) (xs : List α) : List α := xs.drop (xs.length - n)

/-- Someone who is told of shown messages. -/
structure Listener where
  /-- The messages not taken yet, the newest at the end. -/
  waiting : List Message := []
  /-- How many of the earlier ones are lost. -/
  missed : Nat := 0
deriving DecidableEq, Inhabited

namespace Listener

/-- How many messages can wait. -/
def capacity : Nat := 256

/-- One more message. -/
def push (l : Listener) (m : Message) : Listener where
  waiting := newest capacity (l.waiting ++ [m])
  missed := l.missed + (l.waiting.length + 1 - capacity)

end Listener

end Channel

/-- A way for messages to reach someone. -/
structure Channel where
  /-- Its name. -/
  name : String
  /-- What it was told. -/
  settings : Channel.Settings
  /-- Whether it is switched on. -/
  enabled : Bool := true
  /-- What became of its messages. -/
  tally : Channel.Tally := {}
  /-- The shown messages that it keeps, the newest at the end. -/
  history : List Message := []
  /-- Who is told of shown messages. -/
  listener : Option Channel.Listener := none
deriving DecidableEq, Inhabited

namespace Channel

/-- A new channel of a kind. -/
def ofSettings (kind name : String) (settings : Json) : Except Error Channel :=
  match Kind.ofName? kind with
  | none => .error (.unknownKind kind)
  | some k =>
    match Settings.ofJson? k settings with
    | none => .error (.unreadable name)
    | some settings => .ok { name, settings }

/-- A new rehearsal. -/
def ofRehearsal (name : String) (settings : Json) : Except Error Channel :=
  match Settings.ofRehearsal? settings with
  | none => .error (.unreadable name)
  | some settings => .ok { name, settings }

/-- The channel switched on or off. -/
def setEnabled (c : Channel) (enabled : Bool) : Channel := { c with enabled }

/-- The channel with one more message counted. -/
def count (c : Channel) (succeeded : Bool) : Channel :=
  { c with tally := c.tally.count succeeded }

/-- The channel with nothing counted. -/
def resetTally (c : Channel) : Channel := { c with tally := {} }

/-- The last shown messages, the newest at the end. -/
def recent (c : Channel) (limit : Nat) : List Message := newest limit c.history

/-- The channel with a patch applied to its settings. A popup lets go of the messages that it can
no longer keep. -/
def update (c : Channel) (patch : Json) : Except Error Channel :=
  match c.settings.merge? patch with
  | none => .error (.unreadable c.name)
  | some (.popup s) =>
    -- Fewer messages may be kept from now on.
    .ok { c with settings := .popup s, history := newest s.maxHistory.toNat c.history }
  | some settings => .ok { c with settings }

/-- The channel without what it keeps; a rehearsal keeps it nevertheless. -/
def cleanup (c : Channel) : Channel :=
  match c.settings with
  | .popup _ => { c with history := [] }
  | _ => c

/-- What is to be done for a message, or why it is refused. -/
def begin (c : Channel) (m : Message) : Except Error Delivery :=
  if c.enabled then (c.settings.prepare m).mapError (.misconfigured c.name)
  else .error (.disabled c.name)

/-- The channel after a delivered errand. -/
def afterErrand (c : Channel) : Errand → Channel
  | .present shown maxHistory =>
    { c with
      history := newest maxHistory (c.history ++ [shown])
      listener := c.listener.map (·.push shown) }
  | .rehearse message _ _ => { c with history := c.history ++ [message] }
  | _ => c

/-- The channel after a delivery that ended so. -/
def finish (c : Channel) (d : Delivery) : Ending → Except Error Unit × Channel
  | .delivered => (.ok (), (c.afterErrand d.errand).count true)
  | .failed => (.error (.undelivered c.name), c.count false)
  | .late => (.error (.timedOut c.name), c.count false)

/-- What was done for a message, and whether it arrived. -/
structure Attempt where
  /-- What was done, unless the message was refused. -/
  errand : Option Errand
  /-- Whether the message arrived. -/
  result : Except Error Unit

/-- Sends a message. -/
def send (c : Channel) (w : World) (m : Message) : Attempt × Channel :=
  match c.begin m with
  | .error e => (⟨none, .error e⟩, c.count false)
  | .ok d =>
    let (result, c) := c.finish d (d.ending w)
    (⟨some d.errand, result⟩, c)

/-- Lets someone listen, in place of whoever did. -/
def subscribe (c : Channel) : Channel := { c with listener := some {} }

/-- Lets nobody listen. -/
def unsubscribe (c : Channel) : Channel := { c with listener := none }

/-- The number of messages that the listener missed, those that wait for it, and the channel after
it took them. -/
def drain (c : Channel) : Nat × List Message × Channel :=
  match c.listener with
  | none => (0, [], c)
  | some l => (l.missed, l.waiting, { c with listener := some {} })

end Channel

end MarketAlerts
