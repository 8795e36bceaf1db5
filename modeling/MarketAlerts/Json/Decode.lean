import MarketAlerts.Json.Basic
import MarketAlerts.Decimal.Float
import MarketAlerts.Power

/-!
# Typed views of JSON values

Each reader takes a JSON value to a value of a type, or refuses it. A record is written as an
object, whose unknown members are ignored and whose known members must not repeat, or as an array
of the first so many fields in order. A field may be left out of an object when it has a default
or may be absent; at the end of an array only a field with a default may be left out.
-/

namespace MarketAlerts.Json

/-- A string. -/
def string? : Json → Option String
  | .str s => some s
  | _ => none

/-- A truth value. -/
def bool? : Json → Option Bool
  | .bool b => some b
  | _ => none

/-- A whole number from zero up to below `bound`. -/
def natBelow? (bound : Nat) : Json → Option Nat
  | .num (.int n) => if 0 ≤ n ∧ n < bound then some n.toNat else none
  | _ => none

/-- A natural number of 64 bits. -/
def nat64? : Json → Option Nat := natBelow? (twoTo 64)

/-- A word of 64 bits. -/
def word64? (v : Json) : Option UInt64 := v.nat64?.map UInt64.ofNat

/-- A word of 32 bits. -/
def word32? (v : Json) : Option UInt32 := (natBelow? (twoTo 32) v).map UInt32.ofNat

/-- A signed whole number of 64 bits. -/
def int64? : Json → Option Int64
  | .num (.int n) => if -(twoTo 63) ≤ n ∧ n < twoTo 63 then some (Int64.ofInt n) else none
  | _ => none

/-- Any number, as a binary float. -/
def float? : Json → Option Float
  | .num (.int n) => some (if n < 0 then -(Float.ofNat n.natAbs) else Float.ofNat n.natAbs)
  | .num (.float x) => some x
  | .num .negativeNaN => some (0 / 0)
  | _ => none

/-- A decimal: its text, a whole number of 64 bits, or a float taken by its shortest text. -/
def decimal? : Json → Option Decimal
  | .str s => Decimal.ofString? s
  | .num (.int n) =>
    if -(twoTo 63) ≤ n ∧ n < twoTo 64 then Decimal.ofParts? (n < 0) n.natAbs 0 else none
  | .num (.float x) => Decimal.ofString? (Binary64.toText x)
  | _ => none

/-- An array whose elements are all readable. -/
def list? (read : Json → Option α) : Json → Option (List α)
  | .arr vs => vs.mapM read
  | _ => none

/-- `null`, or a readable value. -/
def orNull? (read : Json → Option α) : Json → Option (Option α)
  | .null => some none
  | v => (read v).map some

/-- An object whose members are all readable, sorted by key; of equal keys the last one counts. -/
def map? (read : Json → Option α) : Json → Option (List (String × α))
  | .obj ms => (lastWins ms).mapM fun (k, v) => (read v).map fun a => (k, a)
  | _ => none

/-- One of the names of an enumeration, written as a string or as an object with that one member,
which is null. -/
def name? : Json → Option String
  | .str s => some s
  | .obj [(s, .null)] => some s
  | _ => none

/-- A tagged record: the tag, and the rest. The tag is the member `key` of an object, which must
not repeat, or the first element of an array. -/
def tagged? (key : String) : Json → Option (Json × Json)
  | .obj ms =>
    match ms.filter fun (k, _) => k = key with
    | [(_, tag)] => some (tag, .obj (ms.filter fun (k, _) => k != key))
    | _ => none
  | .arr (tag :: rest) => some (tag, .arr rest)
  | _ => none

/-- The fields of a record as they are written. -/
structure Record where
  /-- The fields that are there. -/
  members : List (String × Json)
  /-- Whether they were written as an array. -/
  positional : Bool

/-- The value as a record with these fields. An array must not have more elements than there are
fields, unless there may be a `surplus`. -/
def record? (v : Json) (fields : List String) (surplus : Bool := false) : Option Record :=
  match v with
  | .obj ms =>
    let known := ms.filter fun (k, _) => fields.contains k
    if hasRepeatedKey known then none else some ⟨known, false⟩
  | .arr vs =>
    if surplus || vs.length ≤ fields.length then some ⟨fields.zip vs, true⟩ else none
  | _ => none

namespace Record

/-- A field that must be there. -/
def field? (r : Record) (key : String) (read : Json → Option α) : Option α :=
  (member? r.members key).bind read

/-- A field with a default for when it is missing. -/
def fieldOr? (r : Record) (key : String) (default : α) (read : Json → Option α) : Option α :=
  match member? r.members key with
  | none => some default
  | some v => read v

/-- A field that may be missing or null. -/
def optional? (r : Record) (key : String) (read : Json → Option α) : Option (Option α) :=
  match member? r.members key with
  | none => if r.positional then none else some none
  | some v => orNull? read v

end Record

mutual

/-- The same value with sorted members, of equal keys the last one. -/
def collapse : Json → Json
  | .arr vs => .arr (collapseElements vs)
  | .obj ms => .obj (lastWins (collapseMembers ms))
  | v => v

/-- The same elements, each collapsed. -/
def collapseElements : List Json → List Json
  | [] => []
  | v :: vs => collapse v :: collapseElements vs

/-- The same members, each collapsed. -/
def collapseMembers : List (String × Json) → List (String × Json)
  | [] => []
  | (k, v) :: ms => (k, collapse v) :: collapseMembers ms

end

end MarketAlerts.Json
