import MarketAlerts.Audit.Basic

/-!
# The audit in JSON

The tables of the audit with all their columns. Truth values are written as zero and one.
-/

namespace MarketAlerts.Audit

/-- A truth value as a number. -/
def bit (b : Bool) : Json := .nat b.toNat

/-- The columns of a condition. -/
def ConditionRow.toJson (r : ConditionRow) : Json := .obj [
  ("condition_id", .str r.conditionId), ("name", .str r.name), ("symbol", .str r.symbol),
  ("condition_type", .str r.conditionType), ("definition", r.definition),
  ("operator", .str r.operator), ("threshold", .str r.threshold), ("priority", .nat r.priority),
  ("is_active", bit r.active), ("status", .str r.status),
  ("trigger_count", .int r.triggers.toInt), ("evaluation_count", .int r.evaluations.toInt),
  ("last_triggered", .strOrNull r.lastTriggered), ("updated_at", .str r.updatedAt)]

/-- The columns of an event. -/
def EventRow.toJson (r : EventRow) : Json := .obj [
  ("event_id", .str r.eventId), ("condition_id", .str r.conditionId),
  ("condition_name", .str r.conditionName), ("symbol", .str r.symbol), ("value", .str r.value),
  ("details", .str r.details), ("priority", .nat r.priority),
  ("evaluation_id", .str r.evaluationId), ("triggered_at", .str r.triggeredAt)]

/-- The columns of a delivery. -/
def DeliveryRow.toJson (r : DeliveryRow) : Json := .obj [
  ("id", .nat r.id), ("event_id", .str r.eventId), ("message_id", .strOrNull r.messageId),
  ("channel", .str r.channel), ("success", bit r.success), ("error", .strOrNull r.error),
  ("recorded_at", .str r.recordedAt)]

/-- The three tables. -/
def toJson (a : Audit) : Json := .obj [
  ("conditions", .arr (a.conditions.map (·.toJson))),
  ("trigger_events", .arr (a.events.map (·.toJson))),
  ("deliveries", .arr (a.deliveries.map (·.toJson)))]

end MarketAlerts.Audit
