import MarketAlerts.Audit.Row

/-!
# The audit

The `Audit` keeps three tables: the last saved state of every condition, the events, each once,
and the deliveries in the order in which they were recorded.
-/

namespace MarketAlerts

namespace Audit

/-- Why the audit refuses something. -/
inductive Error where
  /-- A row could not be put in. -/
  | insert
  /-- A row could not be read. -/
  | query
deriving DecidableEq

/-- The text of an error. -/
def Error.message : Error → String
  | .insert => "failed to insert data"
  | .query => "failed to query data"

end Audit

/-- The recorded rows. -/
structure Audit where
  /-- The conditions, sorted by identifier. -/
  conditions : List Audit.ConditionRow := []
  /-- The events, the newest at the end. -/
  events : List Audit.EventRow := []
  /-- The deliveries, the newest at the end. -/
  deliveries : List Audit.DeliveryRow := []
deriving Inhabited

namespace Audit

/-- The rows with one more, in place of a row with the same identifier. -/
def insertCondition (row : ConditionRow) : List ConditionRow → List ConditionRow
  | [] => [row]
  | first :: rest =>
    if row.conditionId < first.conditionId then row :: first :: rest
    else if row.conditionId = first.conditionId then row :: rest
    else first :: insertCondition row rest

/-- Saves the state of a condition. -/
def saveCondition (a : Audit) (now : Instant) (c : Condition) : Audit :=
  { a with conditions := insertCondition (.ofCondition now c) a.conditions }

/-- Records an event, which must be new. -/
def recordEvent (a : Audit) (e : Event) : Except Error Audit :=
  let row := EventRow.ofEvent e
  if a.events.any fun other => other.eventId = row.eventId then .error .insert
  else .ok { a with events := a.events ++ [row] }

/-- The greatest number of a delivery. -/
def maxDeliveries : Nat := twoTo 63 - 1

/-- Records a delivery, unless there are no numbers left. -/
def recordDelivery (a : Audit) (r : DeliveryRecord) : Except Error Audit :=
  if a.deliveries.length < maxDeliveries then
    .ok { a with deliveries := a.deliveries ++ [.ofRecord (a.deliveries.length + 1) r] }
  else .error .insert

/-- The last deliveries, the newest first. A limit beyond the greatest number of a delivery is no
limit. -/
def recentDeliveries (a : Audit) (now : Instant) (limit : Nat) :
    Except Error (List DeliveryRecord) :=
  let newestFirst := a.deliveries.reverse
  let rows := if maxDeliveries < limit then newestFirst else newestFirst.take limit
  match rows.mapM (DeliveryRow.record? now) with
  | some records => .ok records
  | none => .error .query

end Audit

end MarketAlerts
