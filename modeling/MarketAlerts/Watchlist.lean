import MarketAlerts.Evaluation

/-!
# The watchlist

The `Watchlist` holds the registered conditions in the order of their registration, each with its
memory. A pass over the conditions of a symbol has two ends: `beginPass` marks them as being
evaluated and hands them out, and then either `commitPass` applies what came of them or
`abortPass` takes the marks back. Conditions can be registered, removed and switched on and off
in between.
-/

namespace MarketAlerts

/-- A registered condition. -/
structure Watch where
  /-- The condition and its record. -/
  condition : Condition
  /-- What it remembers. -/
  memory : Memory := {}
  /-- Its status before the last pass began. -/
  statusBefore : Condition.Status := condition.record.status
deriving Inhabited

/-- A condition as a pass takes it up. -/
structure PassItem where
  /-- The condition when the pass began. -/
  condition : Condition
  /-- What it remembered then. -/
  memory : Memory
deriving Inhabited

/-- What came of a condition in a pass. -/
inductive Outcome where
  /-- A reading, and the memory to keep with it. -/
  | evaluated (reading : Reading) (memory : Memory)
  /-- No reading. -/
  | failed (conditionId message : String)
deriving Inhabited

namespace Outcome

/-- The condition that the outcome belongs to. -/
def conditionId : Outcome → String
  | evaluated reading _ => reading.conditionId
  | failed conditionId _ => conditionId

end Outcome

/-- Why the watchlist refuses a request. -/
inductive WatchlistError where
  /-- There is a condition with this identifier already. -/
  | duplicate (id : String)
  /-- There is no condition with this identifier. -/
  | notFound (id : String)
deriving DecidableEq

/-- The text of an error. -/
def WatchlistError.message : WatchlistError → String
  | .duplicate id => "condition " ++ id ++ " is already registered"
  | .notFound id => "condition " ++ id ++ " not found"

namespace Watch

/-- The identifier of the condition. -/
def id (w : Watch) : String := w.condition.id

/-- A condition at its registration: it has no record yet. -/
def ofCondition (c : Condition) : Watch where
  condition := { c with record := { status := .atRest c.active } }

/-- The condition switched on or off; nothing happens if it is so already. -/
def setActive (active : Bool) (w : Watch) : Watch :=
  if w.condition.active = active then w
  else
    { w with condition := {
      w.condition with
      active
      record := { w.condition.record with status := .atRest active } } }

/-- The condition marked as being evaluated. -/
def begin (w : Watch) : Watch where
  condition := { w.condition with record := { w.condition.record with status := .evaluating } }
  memory := w.memory
  statusBefore := w.condition.record.status

/-- The condition without that mark, if it still has it. -/
def abort (w : Watch) : Watch :=
  if w.condition.record.status = .evaluating then
    { w with condition := {
      w.condition with record := { w.condition.record with status := w.statusBefore } } }
  else w

end Watch

namespace Condition.Record

/-- The record after one more completed evaluation. -/
def count (r : Record) (now : Instant) (next : Option Instant) (satisfied : Bool) : Record where
  status := if satisfied then .triggered else .idle
  triggers := if satisfied then r.triggers + 1 else r.triggers
  evaluations := r.evaluations + 1
  lastTriggered := if satisfied then some now else r.lastTriggered
  nextEvaluation := next
  lastError := none

/-- The record after a failed evaluation. -/
def fail (r : Record) (next : Option Instant) (message : String) : Record :=
  { r with status := .error, nextEvaluation := next, lastError := some message }

end Condition.Record

namespace Watch

/-- The condition with the outcome of a pass applied to it. -/
def apply (now : Instant) (next : Option Instant) (o : Outcome) (w : Watch) : Watch :=
  match o with
  | .evaluated reading memory =>
    { w with
      condition := {
        w.condition with record := w.condition.record.count now next reading.satisfied }
      memory }
  | .failed _ message =>
    { w with condition := {
      w.condition with record := w.condition.record.fail next message } }

end Watch

/-- The registered conditions. -/
structure Watchlist where
  /-- The conditions in the order of their registration. -/
  watches : List Watch := []
deriving Inhabited

namespace Watchlist

/-- The registered condition with an identifier. -/
def watch? (l : Watchlist) (id : String) : Option Watch := l.watches.find? fun w => w.id = id

/-- The condition with an identifier. -/
def get? (l : Watchlist) (id : String) : Option Condition := (l.watch? id).map (·.condition)

/-- The conditions in the order of their registration. -/
def conditions (l : Watchlist) : List Condition := l.watches.map (·.condition)

/-- The conditions that take part in passes. -/
def active (l : Watchlist) : List Condition := l.conditions.filter (·.active)

/-- The number of conditions. -/
def size (l : Watchlist) : Nat := l.watches.length

/-- The watchlist with one condition changed. -/
def modify (l : Watchlist) (id : String) (f : Watch → Watch) : Watchlist where
  watches := l.watches.map fun w => if w.id = id then f w else w

/-- Registers a condition. Its record starts anew. -/
def register (l : Watchlist) (c : Condition) : Except WatchlistError Watchlist :=
  if (l.watch? c.id).isSome then .error (.duplicate c.id)
  else .ok { watches := l.watches ++ [Watch.ofCondition c] }

/-- Removes a condition; also gives it back. -/
def unregister (l : Watchlist) (id : String) : Except WatchlistError (Condition × Watchlist) :=
  match l.watch? id with
  | none => .error (.notFound id)
  | some w => .ok (w.condition, { watches := l.watches.filter fun v => v.id ≠ id })

/-- Switches a condition on or off. -/
def setActive (l : Watchlist) (id : String) (active : Bool) : Except WatchlistError Watchlist :=
  if (l.watch? id).isSome then .ok (l.modify id (Watch.setActive active))
  else .error (.notFound id)

/-- Takes up the active conditions of a symbol and marks them as being evaluated. -/
def beginPass (l : Watchlist) (symbol : String) : List PassItem × Watchlist :=
  let taken := (l.watches.filter fun w => w.condition.appliesTo symbol).map Watch.begin
  (taken.map fun w => ⟨w.condition, w.memory⟩,
    { watches := l.watches.map fun w => if w.condition.appliesTo symbol then w.begin else w })

/-- Applies an outcome, unless its condition is gone or switched off. An evaluated condition is
given back as it now stands, with its reading. -/
def commit (l : Watchlist) (now : Instant) (next : Option Instant) (o : Outcome) :
    Option (Condition × Reading) × Watchlist :=
  -- Whoever is registered under the identifier now is meant.
  match l.watches.find? fun w => w.id = o.conditionId && w.condition.active with
  | none => (none, l)
  | some w =>
    let l := l.modify o.conditionId (Watch.apply now next o)
    match o with
    | .evaluated reading _ => (some ((w.apply now next o).condition, reading), l)
    | .failed .. => (none, l)

/-- Applies the outcomes of a pass in order. The evaluated conditions are given back. -/
def commitPass (l : Watchlist) (now : Instant) (next : Option Instant) :
    List Outcome → List (Condition × Reading) × Watchlist
  | [] => ([], l)
  | o :: rest =>
    let (committed, l) := l.commit now next o
    let (others, l) := l.commitPass now next rest
    (committed.toList ++ others, l)

/-- Takes back the marks of `beginPass`. -/
def abortPass (l : Watchlist) (ids : List String) : Watchlist where
  watches := l.watches.map fun w => if ids.contains w.id then w.abort else w

end Watchlist

end MarketAlerts
