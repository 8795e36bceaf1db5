import MarketAlerts.Event
import MarketAlerts.Watchlist

/-!
# The engine

The `Engine` runs passes over its watchlist while it is started. A pass takes up the active
conditions of the snapshot's symbol, evaluates them, and commits the outcomes; every condition
that it finds satisfied becomes an event. Events come in the order of registration.

A step that leaves the range of decimals or dates ends a pass midway: nothing is committed, and
its conditions stay marked as being evaluated.
-/

namespace MarketAlerts

namespace Engine

/-- Why a pass gives no events. -/
inductive Error where
  /-- The engine is not started. -/
  | notRunning
  /-- The engine was stopped before the pass was done. -/
  | cancelled
  /-- A step of the pass left the range of decimals or dates. -/
  | overflow
deriving DecidableEq

/-- The text of an error. -/
def Error.message : Error → String
  | .notRunning => "evaluation engine is not running"
  | .cancelled => "evaluation pass cancelled by shutdown"
  | .overflow => "evaluation overflow"

/-- How an engine works. -/
structure Settings where
  /-- How a pass goes through its conditions. -/
  strategy : Strategy := .sequential
  /-- After how many seconds an evaluated condition is due again, if ever. -/
  interval : Option Nat := none
  /-- How many prices a technical condition keeps. -/
  historyLimit : Nat := Evaluation.defaultHistoryLimit
deriving DecidableEq, Inhabited

end Engine

/-- An engine with its watchlist. -/
structure Engine where
  /-- How it works. -/
  settings : Engine.Settings := {}
  /-- Its conditions. -/
  watchlist : Watchlist := {}
  /-- Whether it is started. -/
  running : Bool := false
  /-- How many times it was started. -/
  starts : Nat := 0
  /-- Where the identifiers of passes and events come from. -/
  supply : Uuid.Supply := ⟨0⟩
deriving Inhabited

/-- The outcome of a condition, or `none` if its evaluation overflows. -/
def PassItem.outcome? (historyLimit : Nat) (s : Snapshot) (item : PassItem) : Option Outcome :=
  match evaluate historyLimit item.condition item.memory s with
  | .ok (reading, memory) => some (.evaluated reading memory)
  | .error .overflow => none
  | .error e => some (.failed item.condition.id e.message)

/-- The outcome of a condition whose evaluation overflows on its own. -/
def PassItem.broken (item : PassItem) : Outcome :=
  .failed item.condition.id EvaluationError.overflow.message

namespace Engine

/-- Starts the engine; nothing happens if it is started already. -/
def start (e : Engine) : Engine :=
  if e.running then e else { e with running := true, starts := e.starts + 1 }

/-- Stops the engine. -/
def halt (e : Engine) : Engine := { e with running := false }

/-- Whether what began under a start of the engine is cancelled: it has been stopped since. -/
def isCancelled (e : Engine) (start : Nat) : Bool := !e.running || e.starts != start

/-- The longest interval that is added to a date, in seconds. -/
def maxInterval : Nat := (twoTo 63 - 1) / 1000

/-- When a condition evaluated now is due again. The date is past the last year if there is no
answer at all. -/
def dueAt? (interval : Option Nat) (now : Instant) : Option (Option Instant) :=
  match interval with
  | none => some none
  | some seconds =>
    if maxInterval < seconds then some none else (now.addSeconds? seconds).map some

/-- The outcomes of a pass. An overflow ends a pass that goes from condition to condition; a pass
over all at once counts it as a failure of its condition. -/
def outcomes? (settings : Settings) (s : Snapshot) (items : List PassItem) :
    Option (List Outcome) :=
  match settings.strategy with
  | .sequential => items.mapM (PassItem.outcome? settings.historyLimit s)
  | .parallel =>
    some (items.map fun item => (item.outcome? settings.historyLimit s).getD item.broken)

/-- The events of the conditions that are satisfied, and the supply after them. -/
def emit (context : PassContext) (now : Instant) (supply : Uuid.Supply) :
    List (Condition × Reading) → List Event × Uuid.Supply
  | [] => ([], supply)
  | (c, r) :: rest =>
    if r.satisfied then
      let (events, last) := emit context now (supply.drop 1) rest
      (Event.ofCondition supply.head now context c r :: events, last)
    else emit context now supply rest

/-- Commits the outcomes of a pass. -/
def commitPass (e : Engine) (context : PassContext) (now : Instant) (outcomes : List Outcome) :
    Except Error (List Event) × Engine :=
  match dueAt? e.settings.interval now with
  | none => (.error .overflow, e)
  | some next =>
    let (committed, watchlist) := e.watchlist.commitPass now next outcomes
    let (events, supply) := emit context now e.supply committed
    (.ok events, { e with watchlist, supply })

/-- Begins a pass: its context and its conditions. -/
def beginPass (e : Engine) (now : Instant) (symbol : String) :
    PassContext × List PassItem × Engine :=
  let (items, watchlist) := e.watchlist.beginPass symbol
  (⟨e.supply.head, e.settings.strategy, now⟩, items,
    { e with watchlist, supply := e.supply.drop 1 })

/-- Runs a pass from its beginning to its end. -/
def evaluateAll (e : Engine) (now : Instant) (s : Snapshot) :
    Except Error (List Event) × Engine :=
  if !e.running then (.error .notRunning, e)
  else
    let (context, items, e) := e.beginPass now s.symbol
    if items.isEmpty then (.ok [], e)
    else
      match outcomes? e.settings s items with
      | none => (.error .overflow, e)
      | some outcomes => e.commitPass context now outcomes

end Engine

end MarketAlerts
