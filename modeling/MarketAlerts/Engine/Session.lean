import MarketAlerts.Engine.Basic

/-!
# Calls at the same time

Passes never overlap: calls wait in a queue, and only the first of them acts. A `Session` is an
engine with that queue. A call for a pass is turned away at once when the engine is not running;
otherwise it remembers under which start of the engine it came, and it is cancelled when it sees
that the engine has been stopped since. A call to stop turns the engine off at once and then
waits until all calls before it are done.

`Session.advance` lets the first call make its next step, `Session.applyAll` follows any course of
calls and steps, and `Session.settle` runs all calls to their ends.
-/

namespace MarketAlerts.Engine

/-- A pass that has begun. -/
structure Flight where
  /-- What its evaluations share. -/
  context : PassContext
  /-- Its conditions. -/
  items : List PassItem
  /-- What came of them so far: nothing yet, or an outcome, or an overflow. -/
  results : List (Option (Option Outcome))

/-- A call that waits or acts. -/
inductive Call where
  /-- A pass over a snapshot, called under a start of the engine; and how far it is. -/
  | pass (ticket start : Nat) (snapshot : Snapshot) (flight : Option Flight)
  /-- A stop that waits for the calls before it. -/
  | drain (ticket : Nat)

/-- How a call ends. -/
inductive Answer where
  /-- The end of a pass. -/
  | pass (result : Except Error (List Event))
  /-- The end of a stop. -/
  | stopped

/-- An engine and the calls that are not done. -/
structure Session where
  /-- The engine. -/
  engine : Engine
  /-- The calls in the order of their arrival. -/
  queue : List Call := []
  /-- The number of the next call. -/
  nextTicket : Nat := 0

/-- A step of a session. -/
inductive Action where
  /-- The engine is started. -/
  | start
  /-- A pass over a snapshot is called for. -/
  | pass (snapshot : Snapshot)
  /-- The engine is stopped. -/
  | stop
  /-- The first call makes its next step; a pass over all at once takes up the condition at
  `pick`. -/
  | advance (pick : Nat)

namespace Flight

/-- A pass at its beginning. -/
def ofItems (context : PassContext) (items : List PassItem) : Flight :=
  ⟨context, items, items.map fun _ => none⟩

/-- The identifiers of its conditions. -/
def ids (f : Flight) : List String := f.items.map (·.condition.id)

/-- The positions of the conditions that are not evaluated yet. -/
def pending (f : Flight) : List Nat :=
  (List.range f.items.length).filter fun i => (f.results[i]?).any (·.isNone)

/-- The outcomes, once all conditions are evaluated. -/
def outcomes (f : Flight) : List Outcome :=
  List.zipWith (fun item result => ((result.getD none).getD item.broken)) f.items f.results

end Flight

namespace Session

/-- A call for a pass. -/
def requestPass (s : Session) (snapshot : Snapshot) : Nat × Option Answer × Session :=
  let t := s.nextTicket
  if s.engine.running then
    (t, none, { s with
      queue := s.queue ++ [.pass t s.engine.starts snapshot none], nextTicket := t + 1 })
  else (t, some (.pass (.error .notRunning)), { s with nextTicket := t + 1 })

/-- A call to stop the engine. -/
def requestStop (s : Session) : Nat × Option Answer × Session :=
  let t := s.nextTicket
  if s.engine.running then
    (t, none, { engine := s.engine.halt, queue := s.queue ++ [.drain t], nextTicket := t + 1 })
  else (t, some .stopped, { s with nextTicket := t + 1 })

/-- A call to start the engine. -/
def start (s : Session) : Session := { s with engine := s.engine.start }

/-- One step of a pass in flight: it ends if it is cancelled; else one more condition is
evaluated, the first in a pass from condition to condition and the one at `pick` in a pass over
all at once; and if there is none left, the outcomes are committed. -/
def stepFlight (e : Engine) (now : Instant) (pick start : Nat) (snapshot : Snapshot) (f : Flight) :
    Engine × (Flight ⊕ Except Error (List Event)) :=
  if e.isCancelled start then
    ({ e with watchlist := e.watchlist.abortPass f.ids }, .inr (.error .cancelled))
  else
    match f.pending with
    | [] =>
      -- Nothing can cancel the pass any more.
      let (result, e) := e.commitPass f.context now f.outcomes
      (e, .inr result)
    | first :: _ =>
      let i := match e.settings.strategy with
        | .sequential => first
        | .parallel => if f.pending.contains pick then pick else first
      match f.items[i]? with
      | none => (e, .inl f)
      | some item =>
        match e.settings.strategy, item.outcome? e.settings.historyLimit snapshot with
        -- The marks of the pass stay.
        | .sequential, none => (e, .inr (.error .overflow))
        | _, o => (e, .inl { f with results := f.results.set i (some o) })

/-- The next step of the first call. -/
def advance (s : Session) (now : Instant) (pick : Nat) : Option (Nat × Answer) × Session :=
  match s.queue with
  | [] => (none, s)
  | .drain t :: rest => (some (t, .stopped), { s with queue := rest })
  | .pass t start snapshot none :: rest =>
    if s.engine.isCancelled start then
      (some (t, .pass (.error .cancelled)), { s with queue := rest })
    else
      let (context, items, engine) := s.engine.beginPass now snapshot.symbol
      -- A pass without conditions is over at once.
      if items.isEmpty then (some (t, .pass (.ok [])), { s with engine, queue := rest })
      else
        (none, { s with
          engine, queue := .pass t start snapshot (some (.ofItems context items)) :: rest })
  | .pass t start snapshot (some f) :: rest =>
    match stepFlight s.engine now pick start snapshot f with
    | (engine, .inl f) =>
      (none, { s with engine, queue := .pass t start snapshot (some f) :: rest })
    | (engine, .inr result) => (some (t, .pass result), { s with engine, queue := rest })

/-- The session after a step of any kind, and the answer if a call is answered. -/
def apply (s : Session) (now : Instant) : Action → Option (Nat × Answer) × Session
  | .start => (none, s.start)
  | .pass snapshot =>
    let (t, answer, s) := s.requestPass snapshot
    (answer.map fun a => (t, a), s)
  | .stop =>
    let (t, answer, s) := s.requestStop
    (answer.map fun a => (t, a), s)
  | .advance pick => s.advance now pick

/-- The answers to calls in the course of these steps, each with the number of its call, and the
session after them. -/
def applyAll (s : Session) (now : Instant) : List Action → List (Nat × Answer) × Session
  | [] => ([], s)
  | a :: rest =>
    let (answer, s) := s.apply now a
    let (answers, s) := s.applyAll now rest
    (answer.toList ++ answers, s)

/-- Lets the first call begin: a pass that has conditions is then in flight. -/
def beginFirst (s : Session) (now : Instant) : Option (Nat × Answer) × Session := s.advance now 0

/-- Steps while there are calls, at most `fuel` of them. -/
def run (now : Instant) : (fuel : Nat) → Session → List (Nat × Answer) × Session
  | 0, s => ([], s)
  | fuel + 1, s =>
    if s.queue.isEmpty then ([], s)
    else
      let (answer, s) := s.advance now 0
      let (answers, s) := run now fuel s
      (answer.toList ++ answers, s)

/-- Runs all calls to their ends. A call makes at most one step for each condition, one to begin
and one to end. -/
def settle (s : Session) (now : Instant) : List (Nat × Answer) × Session :=
  let steps : Call → Nat
    | .pass _ _ _ (some f) => f.items.length + 2
    | _ => s.engine.watchlist.size + 2
  run now (s.queue.foldl (fun n c => n + steps c) 0) s

end Session

end MarketAlerts.Engine
