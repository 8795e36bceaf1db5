import MarketAlerts.Template.Alert

/-!
# Messages

A `Message` is an alert as it goes out through one channel.
-/

namespace MarketAlerts

/-- An alert for one channel. -/
structure Message where
  /-- The identifier of the message. -/
  id : Uuid
  /-- The event it tells of, if any. -/
  eventId : Option Uuid
  /-- The channel. -/
  channel : String
  /-- The title. -/
  title : String
  /-- The body. -/
  content : String
  /-- How urgent it is. -/
  priority : Priority
  /-- When it was made. -/
  timestamp : Instant
deriving DecidableEq, Inhabited

/-- The message of an event, its body rendered with the template `template` for the medium. -/
def Message.ofEvent (lib : Template.Library) (template : String) (e : Event) (channel : String)
    (m : Template.Medium) (id : Uuid) (now : Instant) : Except Template.Error Message := do
  let (title, content) ← lib.renderAlert template e m
  return { id, eventId := some e.id, channel, title, content, priority := e.priority
           timestamp := now }

end MarketAlerts
