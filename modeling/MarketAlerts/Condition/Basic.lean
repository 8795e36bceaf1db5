import MarketAlerts.Indicator.Basic
import MarketAlerts.Instant.Basic
import MarketAlerts.Priority

/-!
# Conditions

A `Condition` compares a figure of one symbol (its `Observable`) with a threshold. Its
`Condition.Record` counts evaluations and triggers and says how the last one went.
-/

namespace MarketAlerts

/-- How an observed value is compared with a threshold. -/
inductive Operator where
  /-- Above the threshold. -/
  | greaterThan
  /-- Not below the threshold. -/
  | greaterEqual
  /-- Below the threshold. -/
  | lessThan
  /-- Not above the threshold. -/
  | lessEqual
  /-- On the threshold. -/
  | equal
  /-- Not on the threshold. -/
  | notEqual
  /-- Above the threshold, where the value before was not. -/
  | crossesAbove
  /-- Below the threshold, where the value before was not. -/
  | crossesBelow
deriving DecidableEq, Inhabited

namespace Operator

/-- All operators. -/
def all : List Operator :=
  [greaterThan, greaterEqual, lessThan, lessEqual, equal, notEqual, crossesAbove, crossesBelow]

/-- The name of an operator. -/
def name : Operator → String
  | greaterThan => "greater_than"
  | greaterEqual => "greater_equal"
  | lessThan => "less_than"
  | lessEqual => "less_equal"
  | equal => "equal"
  | notEqual => "not_equal"
  | crossesAbove => "crosses_above"
  | crossesBelow => "crosses_below"

/-- The operator of a name. -/
def ofName? (s : String) : Option Operator := all.find? fun o => o.name = s

/-- How an operator is shown in a rule. -/
def symbol : Operator → String
  | greaterThan => ">"
  | greaterEqual => ">="
  | lessThan => "<"
  | lessEqual => "<="
  | equal => "=="
  | notEqual => "!="
  | crossesAbove => "crosses above"
  | crossesBelow => "crosses below"

/-- Whether the operator looks at the value before. -/
def isCrossing : Operator → Bool
  | crossesAbove => true
  | crossesBelow => true
  | _ => false

/-- Whether the operator holds between a value and a threshold, after the value `previous`. -/
def holds (o : Operator) (current : Decimal) (previous : Option Decimal) (threshold : Decimal) :
    Bool :=
  match o with
  | greaterThan => threshold.lt current
  | greaterEqual => threshold.le current
  | lessThan => current.lt threshold
  | lessEqual => current.le threshold
  | equal => current.eqv threshold
  | notEqual => !current.eqv threshold
  | crossesAbove => previous.any (·.le threshold) && threshold.lt current
  | crossesBelow => previous.any threshold.le && current.lt threshold

/-- Every operator is found under its name. -/
theorem ofName?_name (o : Operator) : ofName? o.name = some o := by
  cases o <;> rfl

end Operator

/-- A figure of the market over the last day. -/
inductive MarketMetric where
  /-- The change of the price in percent. -/
  | changePercent
  /-- The change of the price. -/
  | change
  /-- The highest price. -/
  | high
  /-- The lowest price. -/
  | low
  /-- The span between highest and lowest price in percent of the lowest. -/
  | rangePercent
deriving DecidableEq, Inhabited

namespace MarketMetric

/-- All metrics. -/
def all : List MarketMetric := [changePercent, change, high, low, rangePercent]

/-- The name of a metric. -/
def name : MarketMetric → String
  | changePercent => "change_percent_24h"
  | change => "change_24h"
  | high => "high_24h"
  | low => "low_24h"
  | rangePercent => "range_percent_24h"

/-- The metric of a name. -/
def ofName? (s : String) : Option MarketMetric := all.find? fun m => m.name = s

/-- The name of a metric in a stored definition. -/
def storedName : MarketMetric → String
  | changePercent => "change_percent24h"
  | change => "change24h"
  | high => "high24h"
  | low => "low24h"
  | rangePercent => "range_percent24h"

/-- The metric of a name in a stored definition. -/
def ofStoredName? (s : String) : Option MarketMetric := all.find? fun m => m.storedName = s

end MarketMetric

/-- A part of the date and time of a snapshot. -/
inductive TimeField where
  /-- The hour, from zero. -/
  | hourOfDay
  /-- The minute since midnight. -/
  | minuteOfDay
  /-- The day of the week, Monday being one. -/
  | dayOfWeek
  /-- The seconds since the start of 1970. -/
  | unixTimestamp
deriving DecidableEq, Inhabited

namespace TimeField

/-- All fields. -/
def all : List TimeField := [hourOfDay, minuteOfDay, dayOfWeek, unixTimestamp]

/-- The name of a field. -/
def name : TimeField → String
  | hourOfDay => "hour_of_day"
  | minuteOfDay => "minute_of_day"
  | dayOfWeek => "day_of_week"
  | unixTimestamp => "unix_timestamp"

/-- The field of a name. -/
def ofName? (s : String) : Option TimeField := all.find? fun f => f.name = s

end TimeField

/-- What a condition observes. -/
inductive Observable where
  /-- The price. -/
  | price
  /-- The volume of the last day. -/
  | volume
  /-- An indicator over the prices seen so far. -/
  | technical (indicator : Indicator)
  /-- A part of the date and time. -/
  | time (field : TimeField)
  /-- A figure of the last day. -/
  | market (metric : MarketMetric)
deriving Inhabited

namespace Observable

/-- The name of the kind of observable. -/
def typeName : Observable → String
  | price => "price"
  | volume => "volume"
  | technical _ => "technical"
  | time _ => "time"
  | market _ => "market"

/-- A title for the kind of observable. -/
def displayName : Observable → String
  | price => "Price"
  | volume => "24h Volume"
  | technical _ => "Technical Indicator"
  | time _ => "Time"
  | market _ => "Market Movement"

/-- The name of the observed figure. -/
def metricName : Observable → String
  | price => "price"
  | volume => "volume_24h"
  | technical indicator => indicator.name
  | time field => field.name
  | market metric => metric.name

/-- How many prices have to be seen before there is a value. -/
def requiredHistory : Observable → Nat
  | technical indicator => indicator.requiredHistory
  | _ => 0

end Observable

namespace Condition

/-- How a condition stands. -/
inductive Status where
  /-- Nothing to report. -/
  | idle
  /-- Taken up by a pass that is under way. -/
  | evaluating
  /-- Satisfied by the last evaluation. -/
  | triggered
  /-- The last evaluation failed. -/
  | error
  /-- Not active. -/
  | disabled
deriving DecidableEq, Inhabited

/-- All statuses. -/
def Status.all : List Status := [.idle, .evaluating, .triggered, .error, .disabled]

/-- The name of a status. -/
def Status.name : Status → String
  | .idle => "idle"
  | .evaluating => "evaluating"
  | .triggered => "triggered"
  | .error => "error"
  | .disabled => "disabled"

/-- The status of a name. -/
def Status.ofName? (s : String) : Option Status := Status.all.find? fun t => t.name = s

/-- The status of a condition that waits for its next pass. -/
def Status.atRest (active : Bool) : Status := if active then .idle else .disabled

/-- What became of a condition so far. -/
structure Record where
  /-- How it stands. -/
  status : Status := .idle
  /-- How many evaluations satisfied it. -/
  triggers : Nat := 0
  /-- How many evaluations were completed. -/
  evaluations : Nat := 0
  /-- When it was last satisfied. -/
  lastTriggered : Option Instant := none
  /-- When it is due again. -/
  nextEvaluation : Option Instant := none
  /-- The message of the last evaluation, if it failed. -/
  lastError : Option String := none
deriving DecidableEq, Inhabited

/-- The percentage of completed evaluations that satisfied the condition. -/
def Record.successRate (r : Record) : Float :=
  if r.evaluations = 0 then 0
  else Float.ofNat r.triggers / Float.ofNat r.evaluations * 100

end Condition

/-- A rule that compares a figure of a symbol with a threshold. -/
structure Condition where
  /-- The identifier, unique among the registered conditions. -/
  id : String
  /-- The name that alerts show. -/
  name : String
  /-- The symbol whose snapshots are looked at. -/
  symbol : String
  /-- What is observed. -/
  observable : Observable
  /-- How it is compared. -/
  operator : Operator
  /-- What it is compared with. -/
  threshold : Decimal
  /-- How urgent its alerts are. -/
  priority : Priority := .medium
  /-- Whether it takes part in passes. -/
  active : Bool := true
  /-- Further texts for its alerts, sorted by key. -/
  metadata : List (String × String) := []
  /-- What became of it so far. -/
  record : Condition.Record := {}
deriving Inhabited

namespace Condition

/-- The rule as a line of text. -/
def describe (c : Condition) : String :=
  c.symbol ++ " " ++ c.observable.metricName ++ " " ++ c.operator.symbol ++ " "
    ++ toString c.threshold

/-- Whether the condition takes part in a pass over a snapshot of this symbol. -/
def appliesTo (c : Condition) (symbol : String) : Bool := c.active && c.symbol == symbol

end Condition

end MarketAlerts
