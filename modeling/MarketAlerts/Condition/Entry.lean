import MarketAlerts.Condition.Basic
import MarketAlerts.Configuration.Error
import MarketAlerts.Toml.Writer

/-!
# Conditions in a configuration

A `Condition.Entry` is a condition as somebody writes it down, with names that may not exist and
parameters that may make no sense. `Condition.ofEntry` makes a condition of it or says what is
wrong: first with the observable, then with the operator, then with the priority.
-/

namespace MarketAlerts.Condition

open MarketAlerts.Configuration (inQuotes)

/-- A condition as it is written in a configuration. -/
structure Entry where
  /-- The identifier, if one is given. -/
  id : Option String
  /-- The name that alerts show. -/
  name : String
  /-- The symbol to look at. -/
  symbol : String
  /-- The kind of observable. -/
  typeName : String
  /-- The market metric or time field. -/
  metric : Option String
  /-- The indicator. -/
  indicator : Option String
  /-- The parameters of the indicator, sorted by key. -/
  params : List (String × Toml)
  /-- The operator. -/
  operator : String
  /-- The threshold. -/
  threshold : Decimal
  /-- The priority. -/
  priority : Option Nat
  /-- Whether the condition takes part in passes. -/
  active : Bool
  /-- Further texts, sorted by key. -/
  metadata : List (String × String)
deriving Inhabited

/-- Reads an entry. -/
def Entry.ofJson? (surplus : Bool) (v : Json) : Option Entry := do
  let r ← v.record? ["id", "name", "symbol", "condition_type", "metric", "indicator", "params",
    "operator", "threshold", "priority", "active", "metadata"] surplus
  return {
    id := ← r.optional? "id" Json.string?
    name := ← r.field? "name" Json.string?
    symbol := ← r.field? "symbol" Json.string?
    typeName := ← r.field? "condition_type" Json.string?
    metric := ← r.optional? "metric" Json.string?
    indicator := ← r.optional? "indicator" Json.string?
    params := ← r.fieldOr? "params" [] (Toml.tableOfJson? surplus)
    operator := ← r.field? "operator" Json.string?
    threshold := ← r.field? "threshold" Json.decimal?
    priority := ← r.optional? "priority" (Json.natBelow? 256)
    active := ← r.fieldOr? "active" true Json.bool?
    metadata := ← r.fieldOr? "metadata" [] (Json.map? Json.string?) }

namespace Entry

/-- What is wrong with an entry. -/
inductive Defect where
  /-- There is no such market metric. -/
  | unknownMetric (name : String)
  /-- There is no such part of the time. -/
  | unknownTimeField (name : String)
  /-- There is no such kind of observable. -/
  | unknownType (name : String)
  /-- There is no such indicator. -/
  | unknownIndicator (name : String)
  /-- A parameter should be a natural number. -/
  | notNatural (key : String) (value : Toml)
  /-- A parameter should be a number. -/
  | notNumber (key : String) (value : Toml)
  /-- The parameters make no sense together. -/
  | badParameters (cause : Indicator.Error)
  /-- There is no such operator. -/
  | unknownOperator (name : String)
  /-- There is no such priority. -/
  | unknownPriority (level : Nat)

/-- The text of a defect. -/
def Defect.message : Defect → String
  | .unknownMetric name => "metric " ++ inQuotes name ++ " is not a market metric"
  | .unknownTimeField name => "metric " ++ inQuotes name ++ " is not a time field"
  | .unknownType name => "condition_type " ++ inQuotes name ++ " is not valid"
  | .unknownIndicator name => "indicator " ++ inQuotes name ++ " is not valid"
  | .notNatural key value =>
    "params." ++ key ++ " must be a non-negative integer, got " ++ value.toText
  | .notNumber key value => "params." ++ key ++ " must be a number, got " ++ value.toText
  | .badParameters cause => "params: " ++ cause.message
  | .unknownOperator name => "operator " ++ inQuotes name ++ " is not valid"
  | .unknownPriority level => "priority " ++ toString level ++ " is outside 1-5"

/-- The text of a defect, with the name of the entry that has it. -/
def Defect.describe (entry : String) (d : Defect) : String :=
  "conditions[" ++ inQuotes entry ++ "]." ++ d.message

/-- A parameter that is a natural number. -/
def natural (e : Entry) (key : String) (default : Nat) : Except Defect Nat :=
  match Toml.get? e.params key with
  | none => .ok default
  | some (.int n) => if 0 ≤ n then .ok n.toNat else .error (.notNatural key (.int n))
  | some v => .error (.notNatural key v)

/-- A parameter that is a number. -/
def number (e : Entry) (key : String) (default : Float) : Except Defect Float :=
  match Toml.get? e.params key with
  | none => .ok default
  | some (.float x) => .ok x
  | some .negativeNaN => .ok (0 / 0)
  | some (.int n) => .ok (if n < 0 then -(Float.ofNat n.natAbs) else Float.ofNat n.natAbs)
  | some v => .error (.notNumber key v)

/-- The indicator with its parameters; without a name it is the relative strength index. -/
def parseIndicator (e : Entry) : Except Defect Indicator := do
  let indicator ← match e.indicator.getD "rsi" with
    | "rsi" => do pure (.rsi (← e.natural "period" 14))
    | "sma" => do pure (.sma (← e.natural "period" 20))
    | "ema" => do pure (.ema (← e.natural "period" 20))
    | "macd" => do
      let fast ← e.natural "fast_period" 12
      let slow ← e.natural "slow_period" 26
      let signal ← e.natural "signal_period" 9
      pure (Indicator.macd fast slow signal)
    | "bollinger" => do
      let period ← e.natural "period" 20
      let multiplier ← e.number "std_dev_multiplier" 2
      pure (Indicator.bollinger period multiplier)
    | other => .error (.unknownIndicator other)
  -- the kinds of the parameters are settled above, their values here
  match indicator.check with
  | .ok _ => .ok indicator
  | .error cause => .error (.badParameters cause)

/-- The observable. -/
def parseObservable (e : Entry) : Except Defect Observable :=
  match e.typeName with
  | "price" => .ok .price
  | "volume" => .ok .volume
  | "market" =>
    let name := e.metric.getD "change_percent_24h"
    match MarketMetric.ofName? name with
    | some metric => .ok (.market metric)
    | none => .error (.unknownMetric name)
  | "time" =>
    let name := e.metric.getD "hour_of_day"
    match TimeField.ofName? name with
    | some field => .ok (.time field)
    | none => .error (.unknownTimeField name)
  | "technical" => e.parseIndicator.map .technical
  | other => .error (.unknownType other)

/-- The operator. -/
def parseOperator (e : Entry) : Except Defect Operator :=
  match Operator.ofName? e.operator with
  | some o => .ok o
  | none => .error (.unknownOperator e.operator)

/-- The priority; the middle one where none is given. -/
def parsePriority (e : Entry) : Except Defect Priority :=
  match e.priority with
  | none => .ok .medium
  | some level =>
    match Priority.ofLevel? level with
    | some p => .ok p
    | none => .error (.unknownPriority level)

end Entry

/-- The condition of an entry. `freshId` is its identifier when the entry has none. -/
def parseEntry (freshId : String) (e : Entry) : Except Entry.Defect Condition := do
  let observable ← e.parseObservable
  let operator ← e.parseOperator
  let priority ← e.parsePriority
  return {
    id := e.id.getD freshId
    name := e.name
    symbol := e.symbol
    observable, operator, priority
    threshold := e.threshold
    active := e.active
    metadata := e.metadata }

/-- The condition of an entry; a defect is reported under the name of the entry. -/
def ofEntry (freshId : String) (e : Entry) : Except ConfigurationError Condition :=
  match parseEntry freshId e with
  | .ok c => .ok c
  | .error defect => .error (.invalid (defect.describe e.name))

end MarketAlerts.Condition
