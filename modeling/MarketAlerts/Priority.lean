import MarketAlerts.Json.Decode

/-!
# Priorities

How urgent an alert is, from 1 (lowest) to 5 (most urgent).
-/

namespace MarketAlerts

/-- A level from 1 to 5. -/
structure Priority where
  /-- The level. -/
  level : Nat
  /-- Levels start at one. -/
  one_le : 1 ≤ level
  /-- Levels end at five. -/
  le_five : level ≤ 5
deriving DecidableEq

namespace Priority

/-- The lowest level. -/
def low : Priority := ⟨1, by decide, by decide⟩

/-- The middle level, which holds where none is given. -/
def medium : Priority := ⟨3, by decide, by decide⟩

instance : Inhabited Priority := ⟨medium⟩

/-- The priority of a level between 1 and 5. -/
def ofLevel? (level : Nat) : Option Priority :=
  if h : 1 ≤ level ∧ level ≤ 5 then some ⟨level, h.1, h.2⟩ else none

/-- The name of a level. -/
def label (p : Priority) : String :=
  match p.level with
  | 1 => "low"
  | 2 => "normal"
  | 3 => "medium"
  | 4 => "high"
  | _ => "critical"

/-- The level in decimal digits. -/
protected def toString (p : Priority) : String := toString p.level

instance : ToString Priority := ⟨Priority.toString⟩

/-- The level as a JSON number. -/
def toJson (p : Priority) : Json := .nat p.level

/-- A JSON number between 1 and 5. -/
def ofJson? (v : Json) : Option Priority := (v.natBelow? 256).bind ofLevel?

end Priority

end MarketAlerts
