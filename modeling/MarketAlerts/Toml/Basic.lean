import MarketAlerts.Power
import MarketAlerts.Json.Basic
import MarketAlerts.Toml.Datetime

/-!
# TOML values

A TOML value as it stands in a configuration file. The entries of a table are sorted by key.
`Toml.toJson` and `Toml.ofJson?` go between TOML and JSON; a date or time is a JSON object with a
reserved key.
-/

namespace MarketAlerts

/-- A TOML value. -/
inductive Toml where
  /-- A string. -/
  | str (s : String)
  /-- A whole number. -/
  | int (n : Int)
  /-- A binary float. -/
  | float (x : Float)
  /-- The float that is no number, with a minus sign; `Float` has no sign for it. -/
  | negativeNaN
  /-- A truth value. -/
  | bool (b : Bool)
  /-- A date, a time, or both, in its standard notation. -/
  | datetime (text : String)
  /-- An array. -/
  | arr (elements : List Toml)
  /-- A table. -/
  | table (entries : List (String × Toml))
deriving Inhabited

namespace Toml

/-- The key under which a date or time stands in JSON. -/
def datetimeKey : String := "$__toml_private_datetime"

/-- The entry of a table. -/
def get? (entries : List (String × Toml)) (key : String) : Option Toml :=
  (entries.find? fun (k, _) => k = key).map (·.2)

mutual

/-- The same value in JSON, where `float` writes the numbers that are floats. -/
def toJsonWith (float : Json.Number → Json) : Toml → Json
  | .str s => .str s
  | .int n => .int n
  | .float x => float (.float x)
  | .negativeNaN => float .negativeNaN
  | .bool b => .bool b
  | .datetime text => .obj [(datetimeKey, .str text)]
  | .arr vs => .arr (elementsToJson float vs)
  | .table es => .obj (entriesToJson float es)

/-- The same elements in JSON. -/
def elementsToJson (float : Json.Number → Json) : List Toml → List Json
  | [] => []
  | v :: vs => toJsonWith float v :: elementsToJson float vs

/-- The same entries in JSON. -/
def entriesToJson (float : Json.Number → Json) : List (String × Toml) → List (String × Json)
  | [] => []
  | (k, v) :: es => (k, toJsonWith float v) :: entriesToJson float es

end

/-- The same value in JSON, with null for floats that are no number. -/
def toJson (v : Toml) : Json := v.toJsonWith fun n => if n.isFinite then .num n else .null

/-- The same value for the typed views of JSON, which tell all floats apart. -/
def toRecord (v : Toml) : Json := v.toJsonWith .num

/-- The date or time that the members of an object stand for, if their first key by order is the
reserved one: its value must be a date or time in any notation. Further members are passed over
where there may be a `surplus`, and are refused elsewhere. -/
def datetimeOfMembers? (surplus : Bool) (ms : List (String × Json)) : Option (Option Toml) :=
  match Json.lastWins ms with
  | (key, v) :: rest =>
    if key ≠ datetimeKey then none
    else
      match v with
      | .str text =>
        if surplus || rest.isEmpty then some ((datetime? text.toList).map .datetime) else some none
      | _ => some none
  | [] => none

/-- The entries in order; of equal keys the last one counts. -/
def sortedEntries (es : List (String × Toml)) : List (String × Toml) :=
  es.foldl (fun sorted (k, v) => Keyed.insert k v sorted) []

mutual

/-- The same value in TOML: there is no null, and whole numbers have 64 bits with sign. -/
def ofJson? (surplus : Bool) : Json → Option Toml
  | .null => none
  | .bool b => some (.bool b)
  | .num (.int n) => if -(twoTo 63) ≤ n ∧ n < twoTo 63 then some (.int n) else none
  | .num (.float x) => some (.float x)
  | .num .negativeNaN => some .negativeNaN
  | .str s => some (.str s)
  | .arr vs => (elementsOfJson? surplus vs).map .arr
  | .obj ms =>
    match datetimeOfMembers? surplus ms with
    | some found => found
    | none => (entriesOfJson? surplus ms).map fun es => .table (sortedEntries es)

/-- The same elements in TOML. -/
def elementsOfJson? (surplus : Bool) : List Json → Option (List Toml)
  | [] => some []
  | v :: vs => do return (← ofJson? surplus v) :: (← elementsOfJson? surplus vs)

/-- The same members in TOML. -/
def entriesOfJson? (surplus : Bool) : List (String × Json) → Option (List (String × Toml))
  | [] => some []
  | (k, v) :: ms => do return (k, ← ofJson? surplus v) :: (← entriesOfJson? surplus ms)

end

/-- The entries of a table, sorted by key. -/
def tableOfJson? (surplus : Bool) : Json → Option (List (String × Toml))
  | .obj ms => (entriesOfJson? surplus ms).map sortedEntries
  | _ => none

end Toml

end MarketAlerts
