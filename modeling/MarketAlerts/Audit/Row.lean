import MarketAlerts.Condition.Json
import MarketAlerts.Event
import MarketAlerts.Instant.Rfc3339

/-!
# Rows of the audit

What the audit stores of a condition, of an event and of a delivery. Identifiers, decimals and
times are stored as texts, and a delivery is read back from such a row.
-/

namespace MarketAlerts.Audit

/-- What is stored of a condition. -/
structure ConditionRow where
  /-- The identifier. -/
  conditionId : String
  /-- The name. -/
  name : String
  /-- The symbol. -/
  symbol : String
  /-- The type of what is observed. -/
  conditionType : String
  /-- What is observed. -/
  definition : Json
  /-- The name of the operator. -/
  operator : String
  /-- The threshold. -/
  threshold : String
  /-- How urgent it is. -/
  priority : Nat
  /-- Whether it takes part in passes. -/
  active : Bool
  /-- The name of the status. -/
  status : String
  /-- How often it triggered, as a signed word. -/
  triggers : Int64
  /-- How often it was evaluated, as a signed word. -/
  evaluations : Int64
  /-- When it triggered last. -/
  lastTriggered : Option String
  /-- When it was saved. -/
  updatedAt : String
deriving Inhabited

/-- The row of a condition that is saved now. -/
def ConditionRow.ofCondition (now : Instant) (c : Condition) : ConditionRow where
  conditionId := c.id
  name := c.name
  symbol := c.symbol
  conditionType := c.observable.typeName
  definition := c.observable.toJson
  operator := c.operator.name
  threshold := toString c.threshold
  priority := c.priority.level
  active := c.active
  status := c.record.status.name
  triggers := .ofNat c.record.triggers
  evaluations := .ofNat c.record.evaluations
  lastTriggered := c.record.lastTriggered.map (·.toRfc3339)
  updatedAt := now.toRfc3339

/-- What is stored of an event. -/
structure EventRow where
  /-- The identifier. -/
  eventId : String
  /-- The condition. -/
  conditionId : String
  /-- Its name. -/
  conditionName : String
  /-- Its symbol. -/
  symbol : String
  /-- The observed value. -/
  value : String
  /-- The reading in words. -/
  details : String
  /-- How urgent it is. -/
  priority : Nat
  /-- The pass that observed it. -/
  evaluationId : String
  /-- When it was emitted. -/
  triggeredAt : String
deriving DecidableEq, Inhabited

/-- The row of an event. -/
def EventRow.ofEvent (e : Event) : EventRow where
  eventId := toString e.id
  conditionId := e.conditionId
  conditionName := e.conditionName
  symbol := e.symbol
  value := toString e.reading.value
  details := e.reading.details
  priority := e.priority.level
  evaluationId := toString e.context.evaluationId
  triggeredAt := e.timestamp.toRfc3339

/-- What became of an event in a channel. -/
structure DeliveryRecord where
  /-- The event. -/
  eventId : Uuid
  /-- The message, if there was one. -/
  messageId : Option Uuid
  /-- The channel. -/
  channel : String
  /-- Whether the message arrived. -/
  success : Bool
  /-- Why not. -/
  error : Option String
  /-- When this was recorded. -/
  recordedAt : Instant
deriving DecidableEq, Inhabited

/-- What is stored of a delivery. -/
structure DeliveryRow where
  /-- The number of the row, counted from one. -/
  id : Nat
  /-- The event. -/
  eventId : String
  /-- The message, if there was one. -/
  messageId : Option String
  /-- The channel. -/
  channel : String
  /-- Whether the message arrived. -/
  success : Bool
  /-- Why not. -/
  error : Option String
  /-- When this was recorded. -/
  recordedAt : String
deriving DecidableEq, Inhabited

namespace DeliveryRow

/-- The row of a delivery. -/
def ofRecord (id : Nat) (r : DeliveryRecord) : DeliveryRow where
  id
  eventId := toString r.eventId
  messageId := r.messageId.map toString
  channel := r.channel
  success := r.success
  error := r.error
  recordedAt := r.recordedAt.toRfc3339

/-- The delivery of a row, unless an identifier cannot be read. A time that cannot be read is taken
for the present. -/
def record? (now : Instant) (row : DeliveryRow) : Option DeliveryRecord := do
  let eventId ← Uuid.ofString? row.eventId
  let messageId ← match row.messageId with
    | none => some none
    | some text => (Uuid.ofString? text).map some
  return {
    eventId, messageId
    channel := row.channel
    success := row.success
    error := row.error
    recordedAt := (Instant.ofRfc3339? row.recordedAt).getD now }

end DeliveryRow

end MarketAlerts.Audit
