import MarketAlerts.Condition.Basic

/-!
# Conditions in JSON

The stored form of the parts of a condition. An observable is a tagged record.
-/

namespace MarketAlerts

/-- An operator by its name. -/
def Operator.ofJson? (v : Json) : Option Operator := v.name?.bind Operator.ofName?

/-- A metric by its stored name. -/
def MarketMetric.ofJson? (v : Json) : Option MarketMetric := v.name?.bind MarketMetric.ofStoredName?

/-- A time field by its name. -/
def TimeField.ofJson? (v : Json) : Option TimeField := v.name?.bind TimeField.ofName?

/-- A status by its name. -/
def Condition.Status.ofJson? (v : Json) : Option Condition.Status :=
  v.name?.bind Condition.Status.ofName?

namespace Observable

/-- The observable as a tagged object. -/
def toJson : Observable → Json
  | price => .obj [("type", .str "price")]
  | volume => .obj [("type", .str "volume")]
  | technical indicator => .obj [("type", .str "technical"), ("indicator", indicator.toJson)]
  | time field => .obj [("type", .str "time"), ("field", .str field.name)]
  | market metric => .obj [("type", .str "market"), ("metric", .str metric.storedName)]

/-- The observable of a tag that needs no more: other members are ignored, other elements are
refused. -/
def bare? (o : Observable) : Json → Option Observable
  | .arr (_ :: _) => none
  | _ => some o

/-- A tagged record. -/
def ofJson? (v : Json) : Option Observable := do
  let (tag, body) ← v.tagged? "type"
  let name (v : Json) : Json :=
    match v with
    | .obj [(s, .obj [])] => .str s
    | _ => v
  match ← tag.string? with
  | "price" => price.bare? body
  | "volume" => volume.bare? body
  | "technical" => do
    let r ← body.record? ["indicator"]
    return technical (← r.field? "indicator" (Indicator.ofJson? true))
  | "time" => do
    let r ← body.record? ["field"]
    return time (← r.field? "field" fun v => TimeField.ofJson? (name v))
  | "market" => do
    let r ← body.record? ["metric"]
    return market (← r.field? "metric" fun v => MarketMetric.ofJson? (name v))
  | _ => none

end Observable

end MarketAlerts
