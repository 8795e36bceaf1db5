import MarketAlerts.Template.Segment
import MarketAlerts.Template.Value

/-!
# Rendering templates

A template is rendered for a medium: the values that replace its placeholders are escaped for it,
its own text is not.
-/

namespace MarketAlerts.Template

/-- Why a template cannot be rendered or stored. -/
inductive Error where
  /-- A placeholder has no value. -/
  | missingVariable (name : String)
  /-- The text is no template. -/
  | malformed (fault : SyntaxFault)
  /-- A value is not of the type that its formatter needs. -/
  | format (formatter : Formatter) (name : String)
  /-- There is no template of this name. -/
  | notFound (name : String)
  /-- There is a template of this name already. -/
  | alreadyExists (name : String)
  /-- The template of this name cannot be changed. -/
  | readOnly (name : String)
  /-- A text does not hold templates. -/
  | serialization
deriving DecidableEq

/-- The text of an error. -/
def Error.message : Error → String
  | .missingVariable name => "no value for template variable $" ++ name
  | .malformed fault =>
    "template syntax error at byte " ++ toString fault.position ++ ": " ++ fault.flaw.message
  | .format formatter name => "formatter " ++ formatter.name ++ " cannot format " ++ name
  | .notFound name => "template " ++ name ++ " not found"
  | .alreadyExists name => "template " ++ name ++ " already exists"
  | .readOnly name => "template " ++ name ++ " is prebuilt and read-only"
  | .serialization => "failed to (de)serialize templates"

/-- What a rendered text is written in. -/
inductive Medium where
  /-- Plain text. -/
  | plain
  /-- Markdown. -/
  | markdown
  /-- HTML. -/
  | html
deriving DecidableEq, Inhabited

/-- The name of a medium. -/
def Medium.name : Medium → String
  | .plain => "plain"
  | .markdown => "markdown"
  | .html => "html"

/-- The medium of a name. -/
def Medium.ofName? (s : String) : Option Medium :=
  [Medium.plain, .markdown, .html].find? fun m => m.name = s

/-- A character that stands for itself in a medium. -/
def escapeChar (m : Medium) (c : Char) : List Char :=
  match m with
  | .plain => [c]
  | .markdown => if c = '_' ∨ c = '*' ∨ c = '`' ∨ c = '[' then ['\\', c] else [c]
  | .html =>
    if c = '&' then "&amp;".toList
    else if c = '<' then "&lt;".toList
    else if c = '>' then "&gt;".toList
    else if c = '"' then "&quot;".toList
    else if c = '\'' then "&#39;".toList
    else [c]

/-- A text that stands for itself in a medium. -/
def escape (m : Medium) (s : String) : String := String.ofList (s.toList.flatMap (escapeChar m))

/-- What the variables stand for. -/
abbrev Variables := List (String × Value)

/-- The value of a variable. -/
def Variables.get? (vars : Variables) (name : String) : Option Value :=
  (vars.find? fun (k, _) => k = name).map (·.2)

/-- The value of a variable as its name asks to write it. -/
def formatValue (name : String) (v : Value) : Except Error String :=
  match Formatter.forVariable? name with
  | none => .ok v.display
  | some f =>
    match f.text? v with
    | some s => .ok s
    | none => .error (.format f name)

/-- The text of a segment. -/
def renderSegment (m : Medium) (vars : Variables) : Segment → Except Error String
  | .literal text => .ok (String.ofList text)
  | .dollar => .ok "$"
  | .placeholder name _ =>
    match vars.get? name with
    | none => .error (.missingVariable name)
    | some v => (formatValue name v).map (escape m)

/-- The text of a template with its placeholders replaced. -/
def render (m : Medium) (vars : Variables) (text : String) : Except Error String := do
  let segments ← (Segment.parse text).mapError .malformed
  return String.join (← segments.mapM (renderSegment m vars))

end MarketAlerts.Template
