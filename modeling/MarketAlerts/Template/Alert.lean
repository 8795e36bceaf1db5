import MarketAlerts.Event
import MarketAlerts.Template.Library

/-!
# Templates for events

The variables that an event offers to a template, and the title and body of its messages.
-/

namespace MarketAlerts

/-- How the names of variables for further texts start. -/
def Event.metadataMark : String := "meta_"

/-- What the variables of a template stand for. -/
def Event.variables (e : Event) : Template.Variables :=
  [("event_id", .text (toString e.id)),
    ("condition_id", .text e.conditionId),
    ("condition_name", .text e.conditionName),
    ("symbol", .text e.symbol),
    ("priority", .integer (Int64.ofNat e.priority.level)),
    ("priority_label", .text e.priority.label),
    ("priority_emoji", .integer (Int64.ofNat e.priority.level)),
    ("satisfied", .bool e.reading.satisfied),
    ("value", .decimal e.reading.value),
    ("value_price", .decimal e.reading.value),
    ("value_percent", .decimal e.reading.value),
    ("details", .text e.reading.details),
    ("timestamp", .instant e.timestamp),
    ("timestamp_datetime", .instant e.timestamp),
    ("evaluation_id", .text (toString e.context.evaluationId)),
    ("strategy", .text e.context.strategy.name),
    ("evaluated_datetime", .instant e.context.timestamp)]
  -- the mark keeps further texts from taking a name above
  ++ e.metadata.map fun (k, v) => (Event.metadataMark ++ k, .text v)

namespace Template

/-- The variables that every event has. -/
def referenceVariables : List String :=
  ["event_id", "condition_id", "condition_name", "symbol", "priority", "priority_label",
    "priority_emoji", "satisfied", "value", "value_price", "value_percent", "details", "timestamp",
    "timestamp_datetime", "evaluation_id", "strategy", "evaluated_datetime"]

/-- The template of every title. -/
def title : String := "$priority_emoji $condition_name ($symbol)"

/-- What can be said about a template text without an event. -/
structure Validation where
  /-- The names it refers to. -/
  placeholders : List String
  /-- Those of them that no event has. -/
  unknown : List String
  /-- What is wrong with the text. -/
  fault : Option SyntaxFault
deriving DecidableEq

/-- Whether the text parses and refers to nothing unknown. -/
def Validation.isValid (v : Validation) : Bool := v.unknown.isEmpty && v.fault.isNone

/-- Whether an event may have a variable of this name. -/
def isKnownVariable (name : String) : Bool :=
  Event.metadataMark.toList.isPrefixOf name.toList || referenceVariables.contains name

/-- Looks at the names in a text; no value is written. -/
def validate (text : String) : Validation :=
  match Template.placeholders text with
  | .ok names => ⟨names, names.filter fun n => !isKnownVariable n, none⟩
  | .error fault => ⟨[], [], some fault⟩

namespace Library

/-- The body of the alert for an event. -/
def renderEvent (lib : Library) (name : String) (e : Event) (m : Medium) : Except Error String :=
  match lib.get? name with
  | none => .error (.notFound name)
  | some t => render m e.variables t.text

/-- The title, in plain text, and the body of the alert for an event. -/
def renderAlert (lib : Library) (name : String) (e : Event) (m : Medium) :
    Except Error (String × String) :=
  match lib.get? name with
  | none => .error (.notFound name)
  | some t => do return (← render .plain e.variables title, ← render m e.variables t.text)

end Library

end Template

end MarketAlerts
