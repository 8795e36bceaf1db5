import MarketAlerts.Json.Decode
import MarketAlerts.Json.Reader
import MarketAlerts.Json.Writer
import MarketAlerts.Keyed
import MarketAlerts.Template.Render

/-!
# The template library

A `Library` holds the prebuilt templates, which never change, and custom ones, which can be
created, updated, deleted, exported and imported. A custom template never takes the name of a
prebuilt one, and its text always parses.

What changes a library is a `Task`. A task makes its checks and its changes one after the other, and
if it fails, the changes made until then stay.
-/

namespace MarketAlerts

/-- Where a template comes from. -/
inductive Template.Origin where
  /-- It is always there. -/
  | prebuilt
  /-- It was stored by somebody. -/
  | custom
deriving DecidableEq, Inhabited

/-- A named template. -/
structure Template where
  /-- The name. -/
  name : String
  /-- The text. -/
  text : String
  /-- What it is for. -/
  description : String
  /-- Where it comes from. -/
  origin : Template.Origin := .custom
deriving DecidableEq, Inhabited

namespace Template

/-- The prebuilt templates, sorted by name. -/
def prebuilt : List Template := [
  { name := "compact"
    origin := .prebuilt
    description := "Single line summary"
    text := "$priority_emoji $symbol: $condition_name ($value)" },
  { name := "default"
    origin := .prebuilt
    description := "Generic trigger notification"
    text := "$priority_emoji $condition_name\nSymbol: $symbol\nValue: $value\n$details\n" ++
      "Time: $timestamp_datetime" },
  { name := "market_alert"
    origin := .prebuilt
    description := "24h market statistics alert"
    text := "$priority_emoji $symbol market alert\n$condition_name\nValue: $value_percent\n" ++
      "$details\nTime: $timestamp_datetime" },
  { name := "price_alert"
    origin := .prebuilt
    description := "Price threshold crossed"
    text := "$priority_emoji $symbol price alert\n$condition_name\nPrice: $value_price\n" ++
      "Time: $timestamp_datetime" },
  { name := "technical_alert"
    origin := .prebuilt
    description := "Technical indicator alert"
    text := "$priority_emoji $symbol technical alert\n$condition_name\n" ++
      "Indicator value: $value\n$details\nEvaluated: $evaluated_datetime ($strategy)" }]

/-- Whether a name belongs to a prebuilt template. -/
def isPrebuilt (name : String) : Bool := prebuilt.any fun t => t.name = name

/-- The fields of a template record. -/
def fields : List String := ["name", "text", "description"]

/-- A template record; the description may be missing. -/
def ofJson? (surplus : Bool) (v : Json) : Option Template := do
  let r ← v.record? fields surplus
  return {
    name := ← r.field? "name" Json.string?
    text := ← r.field? "text" Json.string?
    description := ← r.fieldOr? "description" "" Json.string? }

/-- The template as a record. -/
def toJson (t : Template) : Json :=
  .obj [("name", .str t.name), ("text", .str t.text), ("description", .str t.description)]

/-- The template records of a JSON text. -/
def records? (text : String) : Option (List Template) :=
  (Json.parse? text (.records fields)).bind (Json.list? (ofJson? false))

/-- The templates that can be used. -/
structure Library where
  /-- The custom templates under their names, sorted by name. -/
  entries : List (String × Template) := []
deriving DecidableEq, Inhabited

namespace Library

/-- The custom templates, sorted by name. -/
def custom (lib : Library) : List Template := lib.entries.map (·.2)

/-- The custom template of a name. -/
def customOf? (lib : Library) (name : String) : Option Template := lib.entries.lookup name

/-- The template of a name. -/
def get? (lib : Library) (name : String) : Option Template :=
  (prebuilt.find? fun t => t.name = name).or (lib.customOf? name)

/-- Whether there is a template of a name. -/
def contains (lib : Library) (name : String) : Bool :=
  isPrebuilt name || (lib.customOf? name).isSome

/-- All templates: the prebuilt ones and then the custom ones, each sorted by name. -/
def toList (lib : Library) : List Template := prebuilt ++ lib.custom

/-- The library with a template under a name, in place of the one that stands there. -/
def put (lib : Library) (name : String) (t : Template) : Library where
  entries := Keyed.insert name t lib.entries

/-- The library with a custom template, in place of one of the same name. -/
def store (lib : Library) (t : Template) : Library := lib.put t.name { t with origin := .custom }

/-- The library without the custom template of a name. -/
def remove (lib : Library) (name : String) : Library where
  entries := lib.entries.filter fun (k, _) => k ≠ name

/-- A custom template has no prebuilt name and a text that parses. -/
def checkWritable (name text : String) : Except Error Unit :=
  if isPrebuilt name then .error (.readOnly name)
  else
    match Segment.parse text with
    | .ok _ => .ok ()
    | .error fault => .error (.malformed fault)

/-- Checks records one by one: each is writable, its name is not among `seen`, and it is new
unless `replace` is set. -/
def checkRecords (lib : Library) (replace : Bool) :
    (seen : List String) → List Template → Except Error Unit
  | _, [] => .ok ()
  | seen, t :: rest => do
    checkWritable t.name t.text
    -- Two records of one name are refused even where they replace a template.
    if seen.contains t.name || (!replace && (lib.customOf? t.name).isSome) then
      .error (.alreadyExists t.name)
    else checkRecords lib replace (t.name :: seen) rest

/-- Something that is done with a library and may fail. What it has changed before it fails stays
changed. -/
abbrev Task (α : Type) := ExceptT Error (StateM Library) α

namespace Task

/-- Stores a custom template; one of the same name is kept unless `replace` is set. Says whether
the name is new. -/
def create (t : Template) (replace : Bool) : Task Bool := do
  checkWritable t.name t.text
  let isNew := ((← get).customOf? t.name).isNone
  if !isNew && !replace then throw (.alreadyExists t.name)
  modify (·.store t)
  return isNew

/-- Changes the text of a custom template and, if one is given, its description. -/
def update (name text : String) (description : Option String) : Task Unit := do
  checkWritable name text
  match (← get).customOf? name with
  | none => throw (.notFound name)
  | some t =>
    modify (·.put name { t with text, description := description.getD t.description })

/-- Removes a custom template and gives it back. -/
def delete (name : String) : Task Template := do
  if isPrebuilt name then throw (.readOnly name)
  match (← get).customOf? name with
  | none => throw (.notFound name)
  | some t =>
    modify (·.remove name)
    return t

/-- Checks all records and then stores them. Gives their number. -/
def importRecords (records : List Template) (replace : Bool) : Task Nat := do
  checkRecords (← get) replace [] records
  records.forM fun t => modify (·.store t)
  return records.length

/-- Stores the records of a JSON text. -/
def importText (text : String) (replace : Bool) : Task Nat :=
  match records? text with
  | none => throw .serialization
  | some records => importRecords records replace

end Task

/-- What comes of a task, and the library after it. -/
def perform (lib : Library) (task : Task α) : Except Error α × Library :=
  Id.run (task.run.run lib)

/-- The custom templates as JSON text. -/
def exportText (lib : Library) : String := (Json.arr (lib.custom.map toJson)).pretty

/-! ### For callers that drop a library when a task fails -/

/-- What comes of a task, with the library after it, or why it fails. -/
def attempt (lib : Library) (task : Task α) : Except Error (α × Library) :=
  match lib.perform task with
  | (.ok a, lib) => .ok (a, lib)
  | (.error e, _) => .error e

/-- Stores a custom template. Also says whether the name is new. -/
def create (lib : Library) (t : Template) (replace : Bool) : Except Error (Bool × Library) :=
  lib.attempt (Task.create t replace)

/-- Changes a custom template. -/
def update (lib : Library) (name text : String) (description : Option String) :
    Except Error Library :=
  (lib.attempt (Task.update name text description)).map (·.2)

/-- Removes a custom template; also gives it back. -/
def delete (lib : Library) (name : String) : Except Error (Template × Library) :=
  lib.attempt (Task.delete name)

/-- Stores records. Also gives their number. -/
def importRecords (lib : Library) (records : List Template) (replace : Bool) :
    Except Error (Nat × Library) :=
  lib.attempt (Task.importRecords records replace)

/-- Stores the records of a JSON text. Also gives their number. -/
def importText (lib : Library) (text : String) (replace : Bool) : Except Error (Nat × Library) :=
  lib.attempt (Task.importText text replace)

end Library

end Template

end MarketAlerts
