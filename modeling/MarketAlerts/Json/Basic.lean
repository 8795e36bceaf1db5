import MarketAlerts.Binary64.Shortest
import MarketAlerts.Keyed

/-!
# JSON values

A JSON value keeps the members of an object in the order they were read or built, repeated keys
included; `Json.lastWins` is the view that keeps the last of equal keys and sorts by key.
-/

namespace MarketAlerts

/-- A JSON number: whole numbers of 64 bits are exact, all others are binary floats. -/
inductive Json.Number where
  /-- A whole number between `-2 ^ 63` and `2 ^ 64 - 1`. -/
  | int (n : Int)
  /-- Any other number. -/
  | float (x : Float)
  /-- The float that is no number, with a minus sign; `Float` has no sign for it. -/
  | negativeNaN
deriving Inhabited

/-- Whether a number can be written in JSON. -/
def Json.Number.isFinite : Json.Number → Bool
  | .int _ => true
  | .float x => x.isFinite
  | .negativeNaN => false

/-- A JSON value. -/
inductive Json where
  /-- The null value. -/
  | null
  /-- A truth value. -/
  | bool (b : Bool)
  /-- A number. -/
  | num (n : Json.Number)
  /-- A string. -/
  | str (s : String)
  /-- An array. -/
  | arr (elements : List Json)
  /-- An object. -/
  | obj (members : List (String × Json))
deriving Inhabited

namespace Json

/-- A whole number. -/
def int (n : Int) : Json := .num (.int n)

/-- A natural number. -/
def nat (n : Nat) : Json := .num (.int n)

/-- A binary float. -/
def float (x : Float) : Json := .num (.float x)

/-- A string or null. -/
def strOrNull : Option String → Json
  | none => .null
  | some s => .str s

/-- The members sorted by key; of equal keys the last one counts. -/
def lastWins (members : List (String × Json)) : List (String × Json) :=
  members.foldl (fun sorted (k, v) => Keyed.insert k v sorted) []

/-- The last member with this key. -/
def member? (members : List (String × Json)) (key : String) : Option Json :=
  (members.findRev? fun (k, _) => k = key).map (·.2)

/-- The member of an object with this key; `null` counts as missing. -/
def get? (v : Json) (key : String) : Option Json :=
  match v with
  | .obj members =>
    match member? members key with
    | some .null => none
    | found => found
  | _ => none

/-- Whether the members hold a key twice. -/
def hasRepeatedKey : List (String × Json) → Bool
  | [] => false
  | (k, _) :: rest => rest.any (fun (l, _) => l = k) || hasRepeatedKey rest

end Json

end MarketAlerts
