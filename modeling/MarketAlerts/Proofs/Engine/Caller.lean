import MarketAlerts.Proofs.Engine.Flights
import MarketAlerts.Proofs.Engine.Runs

/-!
# A single caller

An engine is asked for one pass after the other by a single caller, who waits for each answer, while
others only stop the engine. Then a call is answered with what the pass gives when it is run at
once, or it is refused because the engine was stopped.

- `Rests`, `Flying`: how the engine stands between two calls of the caller, and during one;
- `Advanced`, `Flying.advance`: what a step during a call does.
-/

namespace MarketAlerts.Engine

/-- The engine, which may have been stopped since. -/
def stoppedIf (e : Engine) (stopped : Bool) : Engine := if stopped then e.halt else e

/-- The engine runs if it did and was not stopped since. -/
@[simp]
theorem running_stoppedIf (e : Engine) (stopped : Bool) :
    (e.stoppedIf stopped).running = (e.running && !stopped) := by
  cases stopped <;> simp [stoppedIf, halt]

@[simp]
theorem watchlist_stoppedIf (e : Engine) (stopped : Bool) :
    (e.stoppedIf stopped).watchlist = e.watchlist := by
  cases stopped <;> rfl

/-- A further stop leaves the engine stopped. -/
theorem halt_stoppedIf (e : Engine) (stopped : Bool) :
    (e.stoppedIf stopped).halt = e.stoppedIf true := by
  cases stopped <;> rfl

/-- What came under the present start is cancelled by a stop, and by nothing else. -/
theorem isCancelled_stoppedIf {e : Engine} (hrunning : e.running = true) (stopped : Bool) :
    (e.stoppedIf stopped).isCancelled e.starts = stopped := by
  cases stopped <;> simp [stoppedIf, halt, isCancelled, hrunning]

/-- What a pass gives when it is run at once by a running engine. -/
theorem evaluateBetween_of_running {e : Engine} (hrunning : e.running = true)
    (began ended : Instant) (s : Snapshot) :
    e.evaluateBetween began ended s =
      if (e.watchlist.beginPass s.symbol).1.isEmpty then
        (.ok [], (e.beginPass began s.symbol).2.2)
      else
        match outcomes? e.settings s (e.watchlist.beginPass s.symbol).1 with
        | none => (.error .overflow, (e.beginPass began s.symbol).2.2)
        | some outcomes =>
          (e.beginPass began s.symbol).2.2.commitPass (e.beginPass began s.symbol).1 ended
            outcomes := by
  rw [evaluateBetween, hrunning]
  rfl

namespace Session

/-- Calls of others: stops that wait, if the engine has been stopped. -/
structure Stops (stopped : Bool) (calls : List Call) : Prop where
  drain : ∀ c ∈ calls, ∃ ticket, c = .drain ticket
  quiet : stopped = false → calls = []

/-- How the engine stands when the caller has no call. -/
structure Rests (e : Engine) (stopped : Bool) (s : Session) : Prop where
  engine : s.engine = e.stoppedIf stopped
  stops : Stops stopped s.queue

/-- How the engine stands when the caller has called for a pass over a snapshot. -/
inductive Flying (e : Engine) (began : Instant) (snapshot : Snapshot) (ticket : Nat)
    (stopped : Bool) (s : Session) : Prop
  /-- The pass has not begun. -/
  | called {others : List Call}
    (hqueue : s.queue = .pass ticket e.starts snapshot none :: others)
    (hstops : Stops stopped others) (hengine : s.engine = e.stoppedIf stopped)
  /-- The pass has begun. -/
  | begun {others : List Call} {f : Flight}
    (hqueue : s.queue = .pass ticket e.starts snapshot (some f) :: others)
    (hstops : Stops stopped others)
    (hengine : s.engine = (e.beginPass began snapshot.symbol).2.2.stoppedIf stopped)
    (hcontext : f.context = (e.beginPass began snapshot.symbol).1)
    (hitems : f.items = (e.watchlist.beginPass snapshot.symbol).1) (hnonempty : f.items ≠ [])
    (hrecords : f.Records e.settings snapshot)

/-- How many conditions the pass of the first call has still to evaluate; one step more before it
begins. -/
def left (s : Session) : Nat :=
  match s.queue with
  | .pass _ _ snapshot none :: _ => (s.engine.watchlist.beginPass snapshot.symbol).1.length + 1
  | .pass _ _ _ (some f) :: _ => f.pending.length
  | _ => 0

variable {e : Engine} {began ended now : Instant} {snapshot : Snapshot} {ticket : Nat}
  {stopped : Bool} {s : Session}

/-- A stop waits behind the calls before it. -/
theorem Stops.concat {calls : List Call} (h : Stops stopped calls) (ticket : Nat) :
    Stops true (calls ++ [.drain ticket]) where
  drain c hc := by
    rcases List.mem_append.1 hc with hc | hc
    · exact h.drain c hc
    · exact ⟨ticket, List.mem_singleton.1 hc⟩
  quiet hstopped := by cases hstopped

/-- Between two calls only stops are answered. -/
theorem Rests.advance (h : Rests e stopped s) (now : Instant) (pick : Nat) :
    Rests e stopped (s.advance now pick).2 ∧ ∀ a ∈ (s.advance now pick).1, a.2 = .stopped := by
  obtain ⟨engine, queue, n⟩ := s
  cases queue with
  | nil => exact ⟨h, fun a ha => by cases ha⟩
  | cons c rest =>
    obtain ⟨ticket, rfl⟩ := h.stops.drain c List.mem_cons_self
    refine ⟨⟨h.engine, fun c hc => h.stops.drain c (List.mem_cons_of_mem _ hc), fun hquiet => ?_⟩,
      fun a ha => ?_⟩
    · cases h.stops.quiet hquiet
    · cases ha
      rfl

/-- A stop between two calls. -/
theorem Rests.requestStop (h : Rests e stopped s) (hrunning : e.running = true) :
    Rests e true s.requestStop.2.2 := by
  rw [Session.requestStop, h.engine, running_stoppedIf, hrunning]
  cases stopped with
  | false => exact ⟨halt_stoppedIf e false, h.stops.concat _⟩
  | true => exact ⟨rfl, h.stops⟩

/-- A call for a pass waits for its answer, or it is refused. -/
theorem Rests.requestPass (h : Rests e stopped s) (hrunning : e.running = true)
    (snapshot : Snapshot) (began : Instant) :
    (stopped = true ∧ (s.requestPass snapshot).2.1 = some (.pass (.error .notRunning))) ∨
      ((s.requestPass snapshot).2.1 = none ∧
        Flying e began snapshot (s.requestPass snapshot).1 stopped
          (s.requestPass snapshot).2.2) := by
  rw [Session.requestPass, h.engine, running_stoppedIf, hrunning]
  cases stopped with
  | true => exact .inl ⟨rfl, rfl⟩
  | false =>
    have hqueue : s.queue = [] := h.stops.quiet rfl
    refine .inr ⟨rfl, .called (congrArg (· ++ _) hqueue) ⟨fun c hc => ?_, fun _ => rfl⟩ rfl⟩
    cases hc

/-- A stop during a call. -/
theorem Flying.requestStop (h : Flying e began snapshot ticket stopped s)
    (hrunning : e.running = true) :
    Flying e began snapshot ticket true s.requestStop.2.2 := by
  cases h with
  | called hqueue hstops hengine =>
    rw [Session.requestStop, hengine, running_stoppedIf, hrunning]
    cases stopped with
    | false =>
      exact .called (congrArg (· ++ _) hqueue) (hstops.concat _) (halt_stoppedIf e false)
    | true => exact .called hqueue hstops rfl
  | begun hqueue hstops hengine hcontext hitems hnonempty hrecords =>
    have hbegun : (e.beginPass began snapshot.symbol).2.2.running = true := hrunning
    rw [Session.requestStop, hengine, running_stoppedIf, hbegun]
    cases stopped with
    | false =>
      exact .begun (congrArg (· ++ _) hqueue) (hstops.concat _) (halt_stoppedIf _ false) hcontext
        hitems hnonempty hrecords
    | true => exact .begun hqueue hstops rfl hcontext hitems hnonempty hrecords

/-- A step during a call: the call comes closer to its end, or the engine has been stopped and the
call is cancelled, or it is answered with what the pass gives when it is run at once. -/
inductive Advanced (e : Engine) (began : Instant) (snapshot : Snapshot) (ticket : Nat)
    (stopped : Bool) (events : List Event) (e' : Engine) (s : Session)
    (answer : Option (Nat × Answer)) (s' : Session) : Prop
  | nearer (hanswer : answer = none) (hflying : Flying e began snapshot ticket stopped s')
    (hless : s'.left < s.left)
  | cancelled (hanswer : answer = some (ticket, .pass (.error .cancelled)))
    (hstopped : stopped = true)
  | answered (hanswer : answer = some (ticket, .pass (.ok events))) (hquiet : stopped = false)
    (hrests : Rests e' false s')

variable {events : List Event} {e' : Engine} {others : List Call}

/-- The call begins its pass, which is over at once if it has no conditions. -/
theorem advanced_of_called (hrunning : e.running = true)
    (hpass : e.evaluateBetween began ended snapshot = (.ok events, e'))
    (hqueue : s.queue = .pass ticket e.starts snapshot none :: others)
    (hstops : Stops stopped others) (hengine : s.engine = e.stoppedIf stopped) (pick : Nat) :
    Advanced e began snapshot ticket stopped events e' s (s.advance began pick).1
      (s.advance began pick).2 := by
  have hstep := step_advance s began pick
  have hcancelled := isCancelled_stoppedIf hrunning stopped
  obtain ⟨engine, queue, n⟩ := s
  dsimp only at hqueue hengine
  subst hqueue hengine
  generalize Session.advance _ began pick = result at hstep ⊢
  obtain ⟨answer, s'⟩ := result
  cases hstep with
  | refused hstopped => exact .cancelled rfl (hcancelled.symm.trans hstopped)
  | empty hrunningYet hitems =>
    -- a pass without conditions is over at once
    obtain rfl : stopped = false := hcancelled.symm.trans hrunningYet
    have hnone : (e.watchlist.beginPass snapshot.symbol).1.isEmpty := List.isEmpty_iff.2 hitems
    rw [evaluateBetween_of_running hrunning, if_pos hnone] at hpass
    cases hpass
    exact .answered rfl rfl ⟨rfl, hstops⟩
  | begun hrunningYet hitems =>
    obtain rfl : stopped = false := hcancelled.symm.trans hrunningYet
    refine .nearer rfl (.begun rfl hstops rfl rfl rfl hitems (Flight.records_ofItems _ _)) ?_
    change (Flight.ofItems _ _).pending.length <
      (e.watchlist.beginPass snapshot.symbol).1.length + 1
    rw [Flight.pending_ofItems, List.length_range]
    exact Nat.lt_succ_self _

/-- The pass of the call evaluates a condition, or commits when it has evaluated all. -/
theorem advanced_of_begun {f : Flight} (hrunning : e.running = true)
    (hpass : e.evaluateBetween began ended snapshot = (.ok events, e'))
    (hqueue : s.queue = .pass ticket e.starts snapshot (some f) :: others)
    (hstops : Stops stopped others)
    (hengine : s.engine = (e.beginPass began snapshot.symbol).2.2.stoppedIf stopped)
    (hcontext : f.context = (e.beginPass began snapshot.symbol).1)
    (hitems : f.items = (e.watchlist.beginPass snapshot.symbol).1) (hnonempty : f.items ≠ [])
    (hrecords : f.Records e.settings snapshot) (pick : Nat) :
    Advanced e began snapshot ticket stopped events e' s (s.advance ended pick).1
      (s.advance ended pick).2 := by
  have hstep := step_advance s ended pick
  -- the engine has not started anew since the call, so that it is cancelled only if it was stopped
  have hbegun : (e.beginPass began snapshot.symbol).2.2.running = true := hrunning
  have hcancelled := isCancelled_stoppedIf hbegun stopped
  have hsettings : ((e.beginPass began snapshot.symbol).2.2.stoppedIf stopped).settings =
      e.settings := by cases stopped <;> rfl
  rw [evaluateBetween_of_running hrunning, if_neg (by simpa [← hitems] using hnonempty)] at hpass
  obtain ⟨engine, queue, n⟩ := s
  dsimp only at hqueue hengine
  subst hqueue hengine
  generalize Session.advance _ ended pick = result at hstep ⊢
  obtain ⟨answer, s'⟩ := result
  cases hstep with
  | aborted hstopped => exact .cancelled rfl (hcancelled.symm.trans hstopped)
  | evaluated hrunningYet hi hitem houtcome =>
    obtain rfl : stopped = false := hcancelled.symm.trans hrunningYet
    exact .nearer rfl (.begun rfl hstops rfl hcontext hitems hnonempty
      (hrecords.set hitem houtcome)) (Nat.le_of_eq (f.length_pending_set hi _))
  | broken _ hstrategy hi hitem houtcome =>
    -- then the pass would break off when it is run at once
    rw [hsettings] at hstrategy houtcome
    have hnone : outcomes? e.settings snapshot (e.watchlist.beginPass snapshot.symbol).1 = none :=
      outcomes?_eq_none_iff.2 ⟨hstrategy, _, hitems ▸ List.mem_of_getElem? hitem, houtcome⟩
    rw [hnone] at hpass
    cases hpass
  | committed hrunningYet hpending =>
    -- all conditions are evaluated, so that the outcomes are those of a pass that is run at once
    obtain rfl : stopped = false := hcancelled.symm.trans hrunningYet
    rw [← hitems, hrecords.outcomes?_eq hpending, ← hcontext] at hpass
    dsimp only at hpass
    exact .answered (congrArg (fun result => some (ticket, Answer.pass result.1)) hpass) rfl
      ⟨congrArg Prod.snd hpass, hstops⟩

/-- A step of an engine that is called for a pass which gives `events` when it is run at once. -/
theorem Flying.advance (h : Flying e began snapshot ticket stopped s)
    (hrunning : e.running = true)
    (hnow : now = if s.flight?.isSome then ended else began)
    (hpass : e.evaluateBetween began ended snapshot = (.ok events, e')) (pick : Nat) :
    Advanced e began snapshot ticket stopped events e' s (s.advance now pick).1
      (s.advance now pick).2 := by
  cases h with
  | called hqueue hstops hengine =>
    rw [flight?, hqueue] at hnow
    obtain rfl : now = began := hnow
    exact advanced_of_called hrunning hpass hqueue hstops hengine pick
  | begun hqueue hstops hengine hcontext hitems hnonempty hrecords =>
    rw [flight?, hqueue] at hnow
    obtain rfl : now = ended := hnow
    exact advanced_of_begun hrunning hpass hqueue hstops hengine hcontext hitems hnonempty
      hrecords pick

end Session

end MarketAlerts.Engine
