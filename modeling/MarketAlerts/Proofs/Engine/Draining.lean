import MarketAlerts.Proofs.Engine.Isolation
import MarketAlerts.Proofs.Engine.Tickets

/-!
# What is over when a stop is answered

A call that turns the engine off joins the queue behind the pass in flight, so that it is answered
after the end of that pass. A call that finds the engine turned off is answered at once.

## Main definitions

- `Lobby.IsAlone`: no call but the first in the queue is in flight;
- `Lobby.IsHalted`: the passes that were called before a number are cancelled;
- `Lobby.IsDrained`: and none of them is in flight.

## Main results

- `Lobby.Move.isAlone`, `Lobby.IsHalted.move`, `Lobby.IsDrained.move`: what an action preserves;
- `Lobby.course_drained`: a stop that turns the engine off, or that comes while no pass is in
  flight, is answered when no pass that was called before it is in flight or will ever be.

What is left is a stop that finds the engine turned off while a pass is in flight still. It is
answered although the turn of that pass is to come.
-/

namespace MarketAlerts.Engine

namespace Session

variable {s s' : Session} {now : Instant} {answer : Option (Nat × Answer)}

/-- A step of the first call puts no other one in flight. -/
theorem Step.waiting (h : Step now s answer s') (hwaiting : ∀ c ∈ s.queue.tail, c.flight? = none) :
    ∀ c ∈ s'.queue.tail, c.flight? = none := by
  cases h with
  | idle | begun | evaluated => exact hwaiting
  | drained | refused | empty | aborted | committed | broken =>
    -- the next call is the first one from now on
    intro c hc
    exact hwaiting c (List.mem_of_mem_tail hc)

/-- A call that is in flight after a step was so before, or it has just begun and was not
cancelled. -/
theorem Step.flight_cases (h : Step now s answer s') {c : Call} (hc : c ∈ s'.queue)
    (hflight : c.flight?.isSome) :
    ∃ d ∈ s.queue, d.ticket = c.ticket ∧
      (d.flight?.isSome ∨ ∃ start ∈ d.start?, s.engine.isCancelled start = false) := by
  cases h with
  | idle => exact ⟨c, hc, rfl, .inl hflight⟩
  | drained | refused | empty | aborted | committed | broken =>
    exact ⟨c, List.mem_cons_of_mem _ hc, rfl, .inl hflight⟩
  | begun hcancelled =>
    rcases List.mem_cons.1 hc with rfl | hc
    · exact ⟨_, List.mem_cons_self, rfl, .inr ⟨_, rfl, hcancelled⟩⟩
    · exact ⟨c, List.mem_cons_of_mem _ hc, rfl, .inl hflight⟩
  | evaluated =>
    rcases List.mem_cons.1 hc with rfl | hc
    · exact ⟨_, List.mem_cons_self, rfl, .inl rfl⟩
    · exact ⟨c, List.mem_cons_of_mem _ hc, rfl, .inl hflight⟩

/-- The turn of a call changes nothing but the queue, if the call is not in flight and is cancelled
or is a stop. -/
theorem Step.engine_eq_of_waiting (h : Step now s answer s') {c : Call}
    (hhead : s.queue.head? = some c) (hflight : c.flight? = none)
    (hcancelled : ∀ start ∈ c.start?, s.engine.isCancelled start = true) :
    s'.engine = s.engine := by
  cases h with
  | idle | drained | refused | evaluated | broken => rfl
  | empty hnot | begun hnot =>
    cases hhead
    simp [hcancelled _ rfl] at hnot
  | aborted | committed =>
    cases hhead
    cases hflight

end Session

namespace Lobby

variable {b b' : Lobby} {now : Instant} {answer : Option (Nat × Answer)} {t : Nat}

/-! ## One pass at a time -/

/-- No call but the first in the queue is in flight. -/
structure IsAlone (b : Lobby) : Prop where
  waiting : ∀ c ∈ b.session.queue.tail, c.flight? = none
  arriving : ∀ c ∈ b.arriving, c.flight? = none

/-- A step lets no second pass into flight. -/
theorem Move.isAlone (hmove : Move now b answer b') (h : IsAlone b) : IsAlone b' := by
  refine ⟨?_, hmove.arriving h.arriving⟩
  rcases hmove.requested_or_step h.arriving with hrequested | hstep
  · exact hrequested.waiting h.waiting
  · exact hstep.waiting h.waiting

/-- No course of steps lets a second pass into flight. -/
theorem IsAlone.course (h : IsAlone b) (steps : List (Instant × Action)) :
    IsAlone (b.course steps).2 := by
  induction steps generalizing b with
  | nil => exact h
  | cons step steps ih => exact ih ((move_apply b step.1 step.2).isAlone h)

/-- Without a pass in flight no call is. -/
theorem IsAlone.flight?_eq_none (h : IsAlone b) (hflight : b.session.flight? = none) {c : Call}
    (hc : c ∈ b.calls) : c.flight? = none := by
  rcases List.mem_append.1 hc with hc | hc
  · cases hqueue : b.session.queue with
    | nil => simp [hqueue] at hc
    | cons first rest =>
      rw [hqueue] at hc
      rcases List.mem_cons.1 hc with rfl | hc
      · simpa [Session.flight?, hqueue] using hflight
      · exact h.waiting c (by rwa [hqueue])
  · exact h.arriving c hc

/-! ## After a stop -/

/-- The passes that were called before a number are cancelled. -/
structure IsHalted (t : Nat) (b : Lobby) : Prop where
  ticket_le : t ≤ b.session.nextTicket
  doomed : ∀ c ∈ b.calls, c.ticket < t → c.start?.isSome → IsDoomed c.ticket b

/-- The passes that were called before a number are cancelled, and none of them is in flight. -/
structure IsDrained (t : Nat) (b : Lobby) : Prop extends IsHalted t b where
  flight : ∀ c ∈ b.calls, c.ticket < t → c.flight? = none

/-- What is halted stays so. -/
theorem IsHalted.move (h : IsHalted t b) (hmove : Move now b answer b') : IsHalted t b' := by
  refine ⟨Nat.le_trans h.ticket_le hmove.nextTicket_le, fun c hc hticket hstart => ?_⟩
  rcases hmove.mem_calls hc with ⟨d, hd, hdc⟩ | hnew
  · -- the call was there before
    have hsame : d.ticket = c.ticket := by
      rw [← d.ticket_asCalled, hdc, c.ticket_asCalled]
    have hstart : d.start?.isSome := by
      rwa [← d.start?_asCalled, hdc, c.start?_asCalled]
    rw [← hsame] at hticket ⊢
    exact ((h.doomed d hd hticket hstart).move hmove).1
  · exact absurd h.ticket_le (by omega)

/-- A pass that was called before is cancelled. -/
theorem IsHalted.isCancelled (h : IsHalted t b) {c : Call} (hc : c ∈ b.calls)
    (hticket : c.ticket < t) : ∀ start ∈ c.start?, b.session.engine.isCancelled start = true := by
  intro start hstart
  obtain ⟨start', hstart', -, hcancelled⟩ :=
    (h.doomed c hc hticket (Option.isSome_of_mem hstart)).cancelled c hc rfl
  rwa [Option.some.inj (hstart.symm.trans hstart')]

/-- A stop cancels the passes that were called before it, whether or not the engine was running. -/
theorem isHalted_stop (h : IsOrderly b.session.engine.starts b.session.nextTicket b.calls)
    (now : Instant) : IsHalted b.session.nextTicket (b.apply now .stop).2 := by
  have hmove := move_apply b now .stop
  refine ⟨hmove.nextTicket_le, fun c hc hticket hstart => ?_⟩
  rcases hmove.mem_calls hc with ⟨d, hd, hdc⟩ | hnew
  · obtain ⟨start, hstart⟩ := Option.isSome_iff_exists.1 hstart
    rw [← c.start?_asCalled, ← hdc, d.start?_asCalled] at hstart
    rw [← c.ticket_asCalled, ← hdc, d.ticket_asCalled]
    exact isDoomed_stop h hd hstart
  · exact absurd hticket (hnew ▸ Nat.lt_irrefl _)

/-- A call that is in flight after an action was so before, or it has just begun and was not
cancelled. -/
theorem Move.flight_cases (hmove : Move now b answer b') (h : IsAlone b) {c : Call}
    (hc : c ∈ b'.calls) (hflight : c.flight?.isSome) :
    ∃ d ∈ b.calls, d.ticket = c.ticket ∧
      (d.flight?.isSome ∨ ∃ start ∈ d.start?, b.session.engine.isCancelled start = false) := by
  have harriving := hmove.arriving h.arriving
  -- a call on its way is not in flight
  have hqueue : c ∈ b'.session.queue := by
    refine (List.mem_append.1 hc).resolve_right fun hc => ?_
    simp [harriving c hc] at hflight
  rcases hmove.requested_or_step h.arriving with hrequested | hstep
  · obtain ⟨calls, hcalls, hwaiting⟩ := hrequested.queue
    rw [hcalls, List.mem_append] at hqueue
    rcases hqueue with hqueue | hnew
    · exact ⟨c, List.mem_append_left _ hqueue, rfl, .inl hflight⟩
    · simp [hwaiting c hnew] at hflight
  · obtain ⟨d, hd, hsame⟩ := hstep.flight_cases hqueue hflight
    exact ⟨d, List.mem_append_left _ hd, hsame⟩

/-- Once no pass that was called before a number is in flight, none ever is. -/
theorem IsDrained.move (h : IsDrained t b) (halone : IsAlone b) (hmove : Move now b answer b') :
    IsDrained t b' := by
  refine ⟨h.toIsHalted.move hmove, fun c hc hticket => ?_⟩
  by_contra hne
  have hflight : c.flight?.isSome := Option.isSome_iff_ne_none.2 hne
  obtain ⟨d, hd, hsame, hcases⟩ := hmove.flight_cases halone hc hflight
  rw [← hsame] at hticket
  rcases hcases with hbefore | ⟨start, hstart, hnot⟩
  · simp [h.flight d hd hticket] at hbefore
  · -- a pass that is cancelled does not begin
    simp [h.isCancelled hd hticket start hstart] at hnot

/-- A stop that waits is answered when no pass that was called before is in flight any more. -/
theorem IsHalted.answered (h : IsHalted t b) (halone : IsAlone b) (hlt : t < b.session.nextTicket)
    (hmove : Move now b answer b') (hanswer : answer = some (t, .stopped)) : IsDrained t b' := by
  refine ⟨h.move hmove, fun c hc _ => ?_⟩
  cases hmove with
  | @step s s' arriving answer hstep =>
    cases hstep with
    | drained =>
      -- the stop was the first call, and no other one is in flight
      rcases List.mem_append.1 hc with hc | hc
      · exact halone.waiting c hc
      · exact halone.arriving c hc
    | idle | refused | empty | begun | aborted | committed | evaluated | broken => simp at hanswer
  | turnedAway =>
    cases hanswer
    exact absurd hlt (Nat.lt_irrefl _)
  | started | called | halted | joined | nobody => cases hanswer

/-- A stop that is answered at once finds the engine turned off. If no pass is in flight at that
time, the passes that were called before it are cancelled as they are after a stop that waits. -/
theorem isDrained_stop (h : IsOrderly b.session.engine.starts b.session.nextTicket b.calls)
    (halone : IsAlone b) (hbegin : b.session.engine.running = true ∨ b.session.flight? = none)
    (hanswer : (b.apply now .stop).1.isSome) :
    IsDrained b.session.nextTicket (b.apply now .stop).2 := by
  refine ⟨isHalted_stop h now, fun c hc _ => ?_⟩
  have halone' : IsAlone (b.apply now .stop).2 := (move_apply b now .stop).isAlone halone
  refine halone'.flight?_eq_none ?_ hc
  cases hrunning : b.session.engine.running with
  | true => simp [apply, receive, Session.requestStop, hrunning] at hanswer
  | false =>
    show b.session.flight? = none
    exact hbegin.resolve_left (by simp [hrunning])

/-- As long as the stop is not answered the passes are cancelled, and from its answer on none of
them is in flight. -/
theorem IsHalted.course (h : IsHalted t b) (halone : IsAlone b) (hlt : t < b.session.nextTicket)
    (steps : List (Instant × Action))
    (hstopped : IsDrained t b ∨ (t, .stopped) ∈ (b.course steps).1) :
    IsDrained t (b.course steps).2 := by
  induction steps generalizing b with
  | nil => exact hstopped.resolve_right List.not_mem_nil
  | cons step steps ih =>
    obtain ⟨now, a⟩ := step
    have hmove := move_apply b now a
    refine ih (h.move hmove) (hmove.isAlone halone) (Nat.lt_of_lt_of_le hlt hmove.nextTicket_le) ?_
    rcases hstopped with hdrained | hanswer
    · exact .inl (hdrained.move halone hmove)
    · rcases List.mem_append.1 hanswer with hanswer | hanswer
      · exact .inl (h.answered halone hlt hmove (Option.mem_toList.1 hanswer))
      · exact .inr hanswer

/-- Calls for passes, starts and stops come in any order. When a stop is answered that turned the
engine off, or that came while no pass was in flight, then no pass that was called before it is in
flight, nor will it be whatever happens afterwards: its turn, if it still comes, changes nothing. -/
theorem course_drained {e : Engine} {n : Nat} {before steps : List (Instant × Action)}
    {now : Instant} :
    let b := ((Lobby.mk ⟨e, [], n⟩ []).course before).2
    let t := b.session.nextTicket
    let after := b.course ((now, .stop) :: steps)
    b.session.engine.running = true ∨ b.session.flight? = none → (t, .stopped) ∈ after.1 →
    (∀ c ∈ after.2.calls, c.ticket < t → c.flight? = none) ∧
      ∀ c ∈ after.2.session.queue.head?, c.ticket < t → ∀ now pick,
        (after.2.apply now (.advance pick)).2.session.engine = after.2.session.engine := by
  intro b t after hbegin hanswer
  have horderly : IsOrderly b.session.engine.starts b.session.nextTicket b.calls :=
    (IsOrderly.nil e.starts n : IsOrderly _ _ (Lobby.mk ⟨e, [], n⟩ []).calls).course before
  have halone : IsAlone b := IsAlone.course ⟨by rintro c ⟨⟩, by rintro c ⟨⟩⟩ before
  have hmove := move_apply b now .stop
  have hhalted : IsHalted t (b.apply now .stop).2 := isHalted_stop horderly now
  have hnext : (b.apply now .stop).2.session.nextTicket = t + 1 := by
    show (Session.requestStop _).2.2.nextTicket = _
    unfold Session.requestStop
    split <;> rfl
  -- once the stop is queued every step keeps that older calls are on their way out
  have hdrained : IsDrained t after.2 := by
    refine hhalted.course (hmove.isAlone halone) (hnext ▸ Nat.lt_succ_self t) steps ?_
    rcases List.mem_append.1 hanswer with hanswer | hanswer
    · -- the stop is answered at once, so that the engine was not running
      exact .inl (isDrained_stop horderly halone hbegin (Option.isSome_of_mem
        (Option.mem_toList.1 hanswer)))
    · exact .inr hanswer
  refine ⟨hdrained.flight, fun c hc hticket now' pick => ?_⟩
  have hcall : c ∈ after.2.calls := List.mem_append_left _ (List.mem_of_mem_head? hc)
  exact (Session.step_advance after.2.session now' pick).engine_eq_of_waiting hc
    (hdrained.flight c hcall hticket) (hdrained.isCancelled hcall hticket)

/-- A second stop is answered at once, although the first one still waits for the pass in flight,
whose turn then changes the status of its condition. -/
example :
    let pass := Action.pass ((Quote.ofPrice "BTCUSDT" (.ofInt64 101)).atTime ⟨0, 0⟩)
    let now : Instant := ⟨0, 0⟩
    let b := ((Lobby.mk ⟨Session.ofTwo.engine, [], 0⟩ []).course
      ([pass, .join 0, .advance 0, .stop].map fun a => (now, a))).2
    let second := b.apply now .stop
    let later := (second.2.apply now (.advance 0)).2
    second.1.map Prod.fst = some 2 ∧
      second.2.session.engine.watchlist.conditions.map (·.record.status) =
        [.evaluating, .idle] ∧
      later.session.engine.watchlist.conditions.map (·.record.status) = [.idle, .idle] := by
  decide +kernel

end Lobby

end MarketAlerts.Engine
