import MarketAlerts.Proofs.Engine.Steps

/-!
# Calls on their way to the queue

Between the moment at which a call looks whether the engine is running and the moment at which it
joins the queue, other calls can act. A `Lobby` is a session with the calls that are between the
two, and `Lobby.course` follows calls, joins, starts and steps in any order.

- `course_ofSession`: in a session every call joins at once, so that its courses are among these;
- `move_apply`: everything that an action can do (`Lobby.Move`);
- `Move.requested_or_step`: to the watchlist it is a step of the first call or a call that waits.
-/

namespace MarketAlerts.Engine

/-- The number and the snapshot of a call for a pass. -/
def Call.order? : Call → Option (Nat × Snapshot)
  | .pass ticket _ snapshot _ => some (ticket, snapshot)
  | .drain _ => none

/-- A session and the calls that have looked at the engine and not joined the queue yet. -/
structure Lobby where
  /-- The session. -/
  session : Session
  /-- The calls on their way to its queue. -/
  arriving : List Call := []

namespace Lobby

/-- What can happen in a lobby. -/
inductive Action where
  /-- The engine is started. -/
  | start
  /-- A pass over a snapshot is called for: the call sees under which start of the engine it comes,
  if the engine is running. -/
  | pass (snapshot : Snapshot)
  /-- The engine is stopped: the call turns it off. -/
  | stop
  /-- The call at a place among those that are arriving joins the queue. -/
  | join (place : Nat)
  /-- The first call in the queue makes its next step. -/
  | advance (pick : Nat)

/-- What a call does before it joins: the session puts it into an empty queue. -/
def receive (b : Lobby) (request : Session → Nat × Option Answer × Session) :
    Option (Nat × Answer) × Lobby :=
  let (t, answer, s) := request { b.session with queue := [] }
  (answer.map fun a => (t, a), ⟨{ s with queue := b.session.queue }, b.arriving ++ s.queue⟩)

/-- The answer, if a call is answered, and the lobby after an action. -/
def apply (b : Lobby) (now : Instant) : Action → Option (Nat × Answer) × Lobby
  | .start => (none, { b with session := b.session.start })
  | .pass snapshot => b.receive fun s => s.requestPass snapshot
  | .stop => b.receive Session.requestStop
  | .join place =>
    match b.arriving[place]? with
    | none => (none, b)
    | some c =>
      (none, ⟨{ b.session with queue := b.session.queue ++ [c] }, b.arriving.eraseIdx place⟩)
  | .advance pick =>
    let (answer, s) := b.session.advance now pick
    (answer, { b with session := s })

/-- The answers in the course of actions, each at its time, and the lobby after them. -/
def course (b : Lobby) : List (Instant × Action) → List (Nat × Answer) × Lobby
  | [] => ([], b)
  | (now, a) :: rest =>
    let (answer, b) := b.apply now a
    let (answers, b) := b.course rest
    (answer.toList ++ answers, b)

/-- The number and the snapshot of the pass that joins the queue, if one does. -/
def joined? (b : Lobby) : Action → Option (Nat × Snapshot)
  | .join place => b.arriving[place]?.bind Call.order?
  | _ => none

/-- The numbers and the snapshots of the passes in the order in which they join the queue. -/
def joined (b : Lobby) : List (Instant × Action) → List (Nat × Snapshot)
  | [] => []
  | (now, a) :: rest => (b.joined? a).toList ++ (b.apply now a).2.joined rest

theorem course_append (b : Lobby) (xs ys : List (Instant × Action)) :
    b.course (xs ++ ys) =
      ((b.course xs).1 ++ ((b.course xs).2.course ys).1, ((b.course xs).2.course ys).2) := by
  induction xs generalizing b with
  | nil => rfl
  | cons step xs ih => simp [course, ih]

/-! ## Sessions -/

/-- The actions of a session, in which every call joins the queue at once. -/
def Action.ofSession : Engine.Action → List Action
  | .start => [.start]
  | .pass snapshot => [.pass snapshot, .join 0]
  | .stop => [.stop, .join 0]
  | .advance pick => [.advance pick]

/-- In the lobby a call of a session joins at once, and any other step is the same. -/
theorem course_ofSession_single (s : Session) (now : Instant) (a : Engine.Action) :
    (Lobby.mk s []).course ((Action.ofSession a).map fun x => (now, x)) =
      ((s.apply now a).1.toList, ⟨(s.apply now a).2, []⟩) := by
  cases a with
  | start => rfl
  | advance pick => simp [Action.ofSession, course, apply, Session.apply]
  | pass snapshot =>
    cases hrunning : s.engine.running <;>
      simp [Action.ofSession, course, apply, receive, Session.apply, Session.requestPass, hrunning]
  | stop =>
    cases hrunning : s.engine.running <;>
      simp [Action.ofSession, course, apply, receive, Session.apply, Session.requestStop, hrunning]

/-- The courses of a session are courses of a lobby. -/
theorem course_ofSession (s : Session) (steps : List (Instant × Engine.Action)) :
    (Lobby.mk s []).course
        (steps.flatMap fun (now, a) => (Action.ofSession a).map fun x => (now, x)) =
      ((s.course (steps.map fun (now, a) => (now, .act a))).1,
        ⟨(s.course (steps.map fun (now, a) => (now, .act a))).2, []⟩) := by
  induction steps generalizing s with
  | nil => rfl
  | cons step steps ih =>
    obtain ⟨now, a⟩ := step
    rw [List.flatMap_cons, course_append, course_ofSession_single, ih]
    rfl

/-! ## What an action can do -/

/-- What an action can do, with the answer if a call is answered. -/
inductive Move (now : Instant) : Lobby → Option (Nat × Answer) → Lobby → Prop
  /-- The first call in the queue makes a step. -/
  | step {s s' : Session} {arriving : List Call} {answer : Option (Nat × Answer)}
    (hstep : Session.Step now s answer s') : Move now ⟨s, arriving⟩ answer ⟨s', arriving⟩
  /-- The engine is started. -/
  | started {s : Session} {arriving : List Call} : Move now ⟨s, arriving⟩ none ⟨s.start, arriving⟩
  /-- A call finds that the engine is not running. -/
  | turnedAway {e : Engine} {queue arriving : List Call} {n : Nat} {a : Answer}
    (hrunning : e.running = false) (ha : a = .stopped ∨ a = .pass (.error .notRunning)) :
    Move now ⟨⟨e, queue, n⟩, arriving⟩ (some (n, a)) ⟨⟨e, queue, n + 1⟩, arriving⟩
  /-- A call for a pass sees under which start of the engine it comes. -/
  | called {e : Engine} {queue arriving : List Call} {n : Nat} (snapshot : Snapshot)
    (hrunning : e.running = true) :
    Move now ⟨⟨e, queue, n⟩, arriving⟩ none
      ⟨⟨e, queue, n + 1⟩, arriving ++ [.pass n e.starts snapshot none]⟩
  /-- A call to stop turns the engine off. -/
  | halted {e : Engine} {queue arriving : List Call} {n : Nat} (hrunning : e.running = true) :
    Move now ⟨⟨e, queue, n⟩, arriving⟩ none ⟨⟨e.halt, queue, n + 1⟩, arriving ++ [.drain n]⟩
  /-- A call joins the queue. -/
  | joined {e : Engine} {queue before after : List Call} {n : Nat} (c : Call) :
    Move now ⟨⟨e, queue, n⟩, before ++ c :: after⟩ none ⟨⟨e, queue ++ [c], n⟩, before ++ after⟩
  /-- There is no call to join. -/
  | nobody {b : Lobby} : Move now b none b

/-- What is done in the lobby is a step of it. -/
theorem move_apply (b : Lobby) (now : Instant) (a : Action) :
    Move now b (b.apply now a).1 (b.apply now a).2 := by
  obtain ⟨⟨e, queue, n⟩, arriving⟩ := b
  cases a with
  | start => exact .started
  | advance pick => exact .step (Session.step_advance _ now pick)
  | pass snapshot =>
    cases hrunning : e.running with
    | true => simpa [apply, receive, Session.requestPass, hrunning] using .called snapshot hrunning
    | false =>
      simpa [apply, receive, Session.requestPass, hrunning] using .turnedAway hrunning (.inr rfl)
  | stop =>
    cases hrunning : e.running with
    | true => simpa [apply, receive, Session.requestStop, hrunning] using .halted hrunning
    | false =>
      simpa [apply, receive, Session.requestStop, hrunning] using .turnedAway hrunning (.inl rfl)
  | join place =>
    cases hplace : arriving[place]? with
    | none => simpa [apply, hplace] using .nobody
    | some c =>
      -- the calls before and behind the one that joins
      obtain ⟨hlt, hget⟩ := List.getElem?_eq_some_iff.1 hplace
      have hsplit : arriving = arriving.take place ++ c :: arriving.drop (place + 1) := by
        rw [← hget, List.getElem_cons_drop, List.take_append_drop]
      have hmove : Move now ⟨⟨e, queue, n⟩, arriving.take place ++ c :: arriving.drop (place + 1)⟩
          none ⟨⟨e, queue ++ [c], n⟩, arriving.take place ++ arriving.drop (place + 1)⟩ :=
        .joined c
      rw [← hsplit, ← List.eraseIdx_eq_take_drop_succ] at hmove
      simpa [apply, hplace] using hmove

/-- A call that arrives is not in flight. -/
theorem Move.arriving {b b' : Lobby} {now : Instant} {answer : Option (Nat × Answer)}
    (h : Move now b answer b') (harriving : ∀ c ∈ b.arriving, c.flight? = none) :
    ∀ c ∈ b'.arriving, c.flight? = none := by
  cases h with
  | step | started | turnedAway | nobody => exact harriving
  | called | halted =>
    intro d hd
    rcases List.mem_append.1 hd with hd | hd
    · exact harriving d hd
    · rw [List.mem_singleton.1 hd]
      rfl
  | @joined e queue before after n c =>
    intro d hd
    refine harriving d ?_
    rw [List.mem_append] at hd ⊢
    exact hd.imp_right (List.mem_cons_of_mem c)

/-- To the watchlist every action is a step of the first call or a call that waits. -/
theorem Move.requested_or_step {b b' : Lobby} {now : Instant} {answer : Option (Nat × Answer)}
    (h : Move now b answer b') (harriving : ∀ c ∈ b.arriving, c.flight? = none) :
    Session.Requested b.session answer b'.session ∨
      Session.Step now b.session answer b'.session := by
  cases h with
  | step hstep => exact .inr hstep
  | @started s arriving =>
    obtain ⟨hwatchlist, hsettings, hqueue⟩ : s.start.engine.watchlist = s.engine.watchlist ∧
        s.start.engine.settings = s.engine.settings ∧ s.start.queue = s.queue := by
      unfold Session.start Engine.start
      split <;> exact ⟨rfl, rfl, rfl⟩
    exact .inl (Session.requested_of_queue_eq hwatchlist hsettings hqueue (by rintro a ⟨⟩))
  | turnedAway hrunning ha =>
    exact .inl (Session.requested_of_queue_eq rfl rfl rfl (by rintro a ⟨⟩; exact ha))
  -- a call that has not joined the queue leaves all that a session sees as it was
  | called snapshot hrunning =>
    exact .inl (Session.requested_of_queue_eq rfl rfl rfl (by rintro a ⟨⟩))
  | halted hrunning =>
    exact .inl (Session.requested_of_queue_eq rfl rfl rfl (by rintro a ⟨⟩))
  | joined c =>
    have hc := harriving c (by simp)
    exact .inl (Session.requested_of_queue_concat rfl rfl hc rfl)
  | nobody => exact .inl (Session.requested_of_queue_eq rfl rfl rfl (by rintro a ⟨⟩))

end Lobby

end MarketAlerts.Engine
