import MarketAlerts.Evaluation
import MarketAlerts.Uuid

/-!
# Events

An `Event` is emitted for every condition that a pass finds satisfied. It carries what the
condition says about itself and the context of the pass.
-/

namespace MarketAlerts

/-- How a pass goes through its conditions. -/
inductive Strategy where
  /-- One condition after the other. -/
  | sequential
  /-- All conditions at once. -/
  | parallel
deriving DecidableEq, Inhabited

namespace Strategy

/-- The name of a strategy. -/
def name : Strategy → String
  | sequential => "sequential"
  | parallel => "parallel"

/-- The strategy of a name. -/
def ofName? (s : String) : Option Strategy := [sequential, parallel].find? fun t => t.name = s

/-- A strategy by its name. -/
def ofJson? (v : Json) : Option Strategy := v.name?.bind ofName?

end Strategy

/-- What all evaluations of a pass share. -/
structure PassContext where
  /-- The identifier of the pass. -/
  evaluationId : Uuid
  /-- How the pass goes through its conditions. -/
  strategy : Strategy
  /-- When the pass began. -/
  timestamp : Instant
deriving DecidableEq, Inhabited

/-- A condition was satisfied. -/
structure Event where
  /-- The identifier of the event. -/
  id : Uuid
  /-- The condition. -/
  conditionId : String
  /-- Its name. -/
  conditionName : String
  /-- Its symbol. -/
  symbol : String
  /-- What was observed. -/
  reading : Reading
  /-- When the event was emitted. -/
  timestamp : Instant
  /-- The pass that observed it. -/
  context : PassContext
  /-- How urgent it is. -/
  priority : Priority
  /-- Further texts, sorted by key. -/
  metadata : List (String × String)
deriving DecidableEq, Inhabited

/-- The event of a condition with this reading. -/
def Event.ofCondition (id : Uuid) (now : Instant) (context : PassContext) (c : Condition)
    (r : Reading) : Event where
  id
  conditionId := c.id
  conditionName := c.name
  symbol := c.symbol
  reading := r
  timestamp := now
  context
  priority := c.priority
  metadata := c.metadata

end MarketAlerts
