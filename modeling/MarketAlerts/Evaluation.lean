import MarketAlerts.Condition.Basic
import MarketAlerts.Decimal.Float
import MarketAlerts.Indicator.Series
import MarketAlerts.Snapshot

/-!
# Evaluation of a condition

A condition is evaluated against one snapshot and a `Memory` of what it has seen before. The
result is a `Reading` and the memory to keep if the reading counts; a failure keeps nothing.
-/

namespace MarketAlerts

/-- What a condition remembers between evaluations. -/
structure Memory where
  /-- The value of the last evaluation that had one. -/
  previous : Option Decimal := none
  /-- The prices seen so far, oldest first; only technical conditions collect them. -/
  history : List Float := []
deriving Inhabited

/-- The result of evaluating a condition. -/
structure Reading where
  /-- The condition. -/
  conditionId : String
  /-- Whether it is satisfied. -/
  satisfied : Bool
  /-- The observed value. -/
  value : Decimal
  /-- The comparison as a line of text. -/
  details : String
deriving DecidableEq, Inhabited

/-- Why an evaluation has no result. -/
inductive EvaluationError where
  /-- The indicator of the condition has no value. -/
  | indicator (conditionId : String)
  /-- The value of the metric is no decimal. -/
  | notRepresentable (metric : String)
  /-- A step on the way to the value leaves the range of decimals. Such a failure is not confined
  to its condition: it ends a pass that evaluates one condition after the other. -/
  | overflow
deriving DecidableEq

/-- The text of an error. -/
def EvaluationError.message : EvaluationError → String
  | .indicator conditionId => "indicator failed for condition " ++ conditionId
  | .notRepresentable metric => "metric " ++ metric ++ " is not representable as a decimal"
  | .overflow => "evaluation task panicked"

namespace Evaluation

/-- How many prices are kept where no other limit is set. -/
def defaultHistoryLimit : Nat := 500

/-- The last `limit` elements, at least one. -/
def keepLast (limit : Nat) (xs : List α) : List α := xs.drop (xs.length - max limit 1)

/-- The memory with the price of one more snapshot. -/
def remember (limit : Nat) (m : Memory) (price : Decimal) : Memory :=
  { m with history := keepLast limit (m.history ++ [price.toFloat]) }

/-- The span between highest and lowest price in percent of the lowest, to four places. -/
def rangePercent (q : Quote) : Except EvaluationError Decimal :=
  match q.high.sub? q.low with
  | none => .error .overflow
  | some span =>
    match span.div? q.low with
    | none => .error (.notRepresentable MarketMetric.rangePercent.name)
    | some ratio =>
      match ratio.mul? .hundred with
      | none => .error .overflow
      | some percent => .ok (percent.roundEven 4)

/-- The value of a market metric. -/
def marketValue (metric : MarketMetric) (q : Quote) : Except EvaluationError Decimal :=
  match metric with
  | .changePercent => .ok q.changePercent
  | .change => .ok q.change
  | .high => .ok q.high
  | .low => .ok q.low
  | .rangePercent => rangePercent q

/-- The value of a part of the time. -/
def timeValue (field : TimeField) (t : Instant) : Decimal :=
  match field with
  | .hourOfDay => .ofInt64 (Int64.ofNat t.hour)
  | .minuteOfDay => .ofInt64 (Int64.ofNat (t.hour * 60 + t.minute))
  | .dayOfWeek => .ofInt64 (Int64.ofNat t.dayOfWeek)
  | .unixTimestamp => .ofInt64 (Int64.ofInt t.seconds)

/-- The newest value of an indicator over the prices seen so far, to eight places; none while
there are too few of them. -/
def technicalValue (conditionId : String) (indicator : Indicator) (history : List Float) :
    Except EvaluationError (Option Decimal) :=
  match indicator.check with
  | .error _ => .error (.indicator conditionId)
  | .ok _ =>
    if history.length < indicator.requiredHistory then .ok none
    else
      match indicator.calculate history with
      | .error _ => .error (.indicator conditionId)
      | .ok values =>
        match values.getLast? with
        | none => .ok none
        -- Only the newest value counts.
        | some latest =>
          match Decimal.ofFloat? latest with
          | none => .error (.notRepresentable indicator.name)
          | some value => .ok (some (value.roundEven 8))

/-- The observed value, if there is one yet, and the memory with what has been seen. -/
def observe (historyLimit : Nat) (c : Condition) (m : Memory) (s : Snapshot) :
    Except EvaluationError (Option Decimal × Memory) :=
  match c.observable with
  | .price => .ok (some s.price, m)
  | .volume => .ok (some s.volume, m)
  | .market metric => (marketValue metric s.toQuote).map fun v => (some v, m)
  | .time field => .ok (some (timeValue field s.timestamp), m)
  | .technical indicator =>
    let m := remember historyLimit m s.price
    (technicalValue c.id indicator m.history).map fun v => (v, m)

/-- The reading while there are too few prices. -/
def warmingUp (c : Condition) (samples : Nat) : Reading where
  conditionId := c.id
  satisfied := false
  value := .zero
  details := c.observable.metricName ++ " warming up: " ++ toString samples ++ "/"
    ++ toString c.observable.requiredHistory ++ " samples"

/-- The reading of a value that follows the value `previous`. -/
def compareValue (c : Condition) (previous : Option Decimal) (current : Decimal) : Reading :=
  let satisfied := c.operator.holds current previous c.threshold
  let observed := c.symbol ++ " " ++ c.observable.metricName ++ " = " ++ toString current
  { conditionId := c.id
    satisfied
    value := current
    details :=
      -- the first value crosses nothing, and the text says why
      if c.operator.isCrossing && previous.isNone then
        observed ++ "; no previous value to detect a crossing"
      else
        observed ++ " " ++ c.operator.symbol ++ " " ++ toString c.threshold
          ++ (if satisfied then " (satisfied)" else " (not satisfied)") }

end Evaluation

/-- Evaluates a condition against a snapshot: the reading, and the memory to keep with it. -/
def evaluate (historyLimit : Nat) (c : Condition) (m : Memory) (s : Snapshot) :
    Except EvaluationError (Reading × Memory) :=
  (Evaluation.observe historyLimit c m s).map fun
    | (none, seen) => (Evaluation.warmingUp c seen.history.length, seen)
    | (some current, seen) =>
      (Evaluation.compareValue c m.previous current, { seen with previous := some current })

end MarketAlerts
