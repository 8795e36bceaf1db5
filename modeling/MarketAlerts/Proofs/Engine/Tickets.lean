import Mathlib.Data.List.Nodup
import MarketAlerts.Proofs.Engine.Lobby

/-!
# Numbers of calls and starts of the engine

Every call has a number, and a call for a pass keeps the start of the engine under which it came.

- `Lobby.IsOrderly.course`: the calls that are not answered have distinct numbers, and no pass came
  under a start that is still to come;
- `Lobby.Move.isCancelled`: what is cancelled remains so, be it that the engine is started again;
- `Lobby.isDoomed_stop`, `Lobby.IsDoomed.course`: a stop dooms all passes that were called before it
  and are not answered yet, and they can only be answered as cancelled.
-/

namespace MarketAlerts.Engine

namespace Call

/-- The number of a call. -/
def ticket : Call → Nat
  | .pass ticket _ _ _ => ticket
  | .drain ticket => ticket

/-- The start of the engine under which a pass was called. -/
def start? : Call → Option Nat
  | .pass _ start _ _ => some start
  | .drain _ => none

/-- The call as it was before it began. -/
def asCalled : Call → Call
  | .pass ticket start snapshot _ => .pass ticket start snapshot none
  | .drain ticket => .drain ticket

@[simp]
theorem ticket_asCalled (c : Call) : c.asCalled.ticket = c.ticket := by
  cases c <;> rfl

@[simp]
theorem start?_asCalled (c : Call) : c.asCalled.start? = c.start? := by
  cases c <;> rfl

@[simp]
theorem order?_asCalled (c : Call) : c.asCalled.order? = c.order? := by
  cases c <;> rfl

end Call

/-! ## One step -/

theorem starts_le_start (e : Engine) : e.starts ≤ e.start.starts := by
  unfold Engine.start
  split
  · exact Nat.le_refl _
  · exact Nat.le_succ _

/-- What was cancelled remains so when the engine is started again. -/
theorem isCancelled_start {e : Engine} {start : Nat} (hstart : start ≤ e.starts)
    (h : e.isCancelled start = true) : e.start.isCancelled start = true := by
  unfold Engine.start
  split
  next => exact h
  next =>
    have hne : e.starts + 1 ≠ start := by omega
    simp [isCancelled, hne]

namespace Session

variable {s s' : Session} {now : Instant} {answer : Option (Nat × Answer)}

/-- The end of a pass neither starts nor stops the engine. -/
theorem commitPass_eq (e : Engine) (context : PassContext) (now : Instant)
    (outcomes : List Outcome) :
    (e.commitPass context now outcomes).2.running = e.running ∧
      (e.commitPass context now outcomes).2.starts = e.starts := by
  unfold commitPass
  split <;> exact ⟨rfl, rfl⟩

/-- A step of the first call does not turn the engine on or off. -/
theorem Step.engine_eq (h : Step now s answer s') :
    s'.engine.running = s.engine.running ∧ s'.engine.starts = s.engine.starts ∧
      s'.nextTicket = s.nextTicket := by
  cases h with
  | committed hcancelled hpending =>
    obtain ⟨hrunning, hstarts⟩ := commitPass_eq _ _ now _
    exact ⟨hrunning, hstarts, rfl⟩
  | idle | drained | refused | empty | begun | aborted | evaluated | broken => exact ⟨rfl, rfl, rfl⟩

/-- A step cancels nothing. -/
theorem Step.isCancelled_eq (h : Step now s answer s') (start : Nat) :
    s'.engine.isCancelled start = s.engine.isCancelled start := by
  obtain ⟨hrunning, hstarts, -⟩ := h.engine_eq
  rw [isCancelled, isCancelled, hrunning, hstarts]

/-- The first call is answered and leaves the queue, or it stays the first. -/
theorem Step.queue_cases (h : Step now s answer s') :
    (answer = none ∧ s'.queue.map Call.asCalled = s.queue.map Call.asCalled) ∨
      ∃ c a, s.queue = c :: s'.queue ∧ answer = some (c.ticket, a) := by
  cases h with
  | idle | begun | evaluated => exact .inl ⟨rfl, rfl⟩
  | drained | refused | empty | aborted | committed | broken => exact .inr ⟨_, _, rfl, rfl⟩

/-- A pass that is cancelled is answered as such. -/
theorem Step.answer_eq_cancelled {c : Call} {rest : List Call} {a : Nat × Answer} {start : Nat}
    (h : Step now s (some a) s') (hqueue : s.queue = c :: rest) (hstart : c.start? = some start)
    (hcancelled : s.engine.isCancelled start = true) : a.2 = .pass (.error .cancelled) := by
  cases h with
  | drained =>
    cases hqueue
    cases hstart
  | refused | aborted => rfl
  | empty hrunning | committed hrunning | broken hrunning =>
    cases hqueue
    cases hstart
    rw [hcancelled] at hrunning
    cases hrunning

end Session

namespace Lobby

/-- All calls that are not answered. -/
def calls (b : Lobby) : List Call := b.session.queue ++ b.arriving

/-! ## Numbers -/

/-- Calls have distinct numbers below `next`, and came under one of the first `starts` starts. -/
structure IsOrderly (starts next : Nat) (calls : List Call) : Prop where
  nodup : (calls.map Call.ticket).Nodup
  ticket_lt : ∀ c ∈ calls, c.ticket < next
  start_le : ∀ c ∈ calls, ∀ start ∈ c.start?, start ≤ starts

namespace IsOrderly

variable {starts next : Nat} {calls calls' : List Call}

/-- Without calls everything is in order. -/
theorem nil (starts next : Nat) : IsOrderly starts next [] where
  nodup := List.nodup_nil
  ticket_lt c hc := by cases hc
  start_le c hc := by cases hc

/-- Fewer calls are in order. -/
theorem of_sublist (h : IsOrderly starts next calls) (hsublist : calls'.Sublist calls) :
    IsOrderly starts next calls' where
  nodup := h.nodup.sublist (hsublist.map _)
  ticket_lt c hc := h.ticket_lt c (hsublist.subset hc)
  start_le c hc := h.start_le c (hsublist.subset hc)

/-- The order of the calls does not matter. -/
theorem of_perm (h : IsOrderly starts next calls) (hperm : calls'.Perm calls) :
    IsOrderly starts next calls' where
  nodup := (hperm.map _).nodup_iff.2 h.nodup
  ticket_lt c hc := h.ticket_lt c (hperm.subset hc)
  start_le c hc := h.start_le c (hperm.subset hc)

/-- Whether a call has begun does not matter. -/
theorem of_asCalled (h : IsOrderly starts next calls)
    (heq : calls'.map Call.asCalled = calls.map Call.asCalled) : IsOrderly starts next calls' := by
  have hmem : ∀ c ∈ calls', ∃ d ∈ calls, d.asCalled = c.asCalled := by
    intro c hc
    have hcalled := List.mem_map_of_mem (f := Call.asCalled) hc
    rw [heq] at hcalled
    exact List.mem_map.1 hcalled
  refine ⟨?_, fun c hc => ?_, fun c hc => ?_⟩
  · have htickets : ∀ xs : List Call,
        xs.map Call.ticket = (xs.map Call.asCalled).map Call.ticket := by
      intro xs
      simp [Function.comp_def]
    rw [htickets, heq, ← htickets]
    exact h.nodup
  · obtain ⟨d, hd, hdc⟩ := hmem c hc
    rw [← Call.ticket_asCalled, ← hdc, Call.ticket_asCalled]
    exact h.ticket_lt d hd
  · obtain ⟨d, hd, hdc⟩ := hmem c hc
    rw [← Call.start?_asCalled, ← hdc, Call.start?_asCalled]
    exact h.start_le d hd

/-- A new call has the next number. -/
theorem concat (h : IsOrderly starts next calls) {c : Call} (hticket : c.ticket = next)
    (hstart : ∀ start ∈ c.start?, start ≤ starts) :
    IsOrderly starts (next + 1) (calls ++ [c]) := by
  refine ⟨?_, fun d hd => ?_, fun d hd => ?_⟩
  · rw [List.map_append, List.map_singleton, List.nodup_append]
    refine ⟨h.nodup, List.nodup_singleton _, fun t ht u hu htu => ?_⟩
    rw [List.mem_singleton] at hu
    obtain ⟨d, hd, rfl⟩ := List.mem_map.1 ht
    have hlt := h.ticket_lt d hd
    omega
  · rcases List.mem_append.1 hd with hd | hd
    · exact Nat.lt_succ_of_lt (h.ticket_lt d hd)
    · rw [List.mem_singleton.1 hd, hticket]
      exact Nat.lt_succ_self next
  · rcases List.mem_append.1 hd with hd | hd
    · exact h.start_le d hd
    · rw [List.mem_singleton.1 hd]
      exact hstart

theorem mono (h : IsOrderly starts next calls) {starts' next' : Nat} (hstarts : starts ≤ starts')
    (hnext : next ≤ next') : IsOrderly starts' next' calls where
  nodup := h.nodup
  ticket_lt c hc := Nat.lt_of_lt_of_le (h.ticket_lt c hc) hnext
  start_le c hc start hstart := Nat.le_trans (h.start_le c hc start hstart) hstarts

end IsOrderly

variable {b b' : Lobby} {now : Instant} {answer : Option (Nat × Answer)}

/-- A step leaves the calls of a lobby in order. -/
theorem Move.isOrderly (hmove : Move now b answer b')
    (h : IsOrderly b.session.engine.starts b.session.nextTicket b.calls) :
    IsOrderly b'.session.engine.starts b'.session.nextTicket b'.calls := by
  cases hmove with
  | @step s s' arriving answer hstep =>
    obtain ⟨-, hstarts, hnext⟩ := hstep.engine_eq
    rw [hstarts, hnext]
    rcases hstep.queue_cases with ⟨-, hqueue⟩ | ⟨c, a, hqueue, -⟩
    · exact h.of_asCalled (by simp [calls, hqueue])
    · -- the first call is answered and leaves
      refine h.of_sublist ?_
      simp only [calls, hqueue, List.cons_append]
      exact List.sublist_cons_self c _
  | started => exact h.mono (starts_le_start _) (Nat.le_refl _)
  | turnedAway hrunning ha => exact h.mono (Nat.le_refl _) (Nat.le_succ _)
  -- a new call has the highest ticket, and is the last in the list
  | @called e queue arriving n snapshot hrunning =>
    have hconcat := h.concat (c := .pass n e.starts snapshot none) rfl
      (by rintro start ⟨⟩; exact Nat.le_refl _)
    rwa [calls, List.append_assoc] at hconcat
  | @halted e queue arriving n hrunning =>
    have hconcat := h.concat (c := .drain n) rfl (by rintro start ⟨⟩)
    rwa [calls, List.append_assoc] at hconcat
  | @joined e queue before after n c =>
    refine h.of_perm ?_
    simp only [calls, List.append_assoc, List.singleton_append]
    exact List.perm_middle.symm.append_left queue
  | nobody => exact h

/-- Any course of steps leaves the calls of a lobby in order. -/
theorem IsOrderly.course {b : Lobby}
    (h : IsOrderly b.session.engine.starts b.session.nextTicket b.calls)
    (steps : List (Instant × Action)) :
    let b' := (b.course steps).2
    IsOrderly b'.session.engine.starts b'.session.nextTicket b'.calls := by
  induction steps generalizing b with
  | nil => exact h
  | cons step steps ih => exact ih ((move_apply b step.1 step.2).isOrderly h)

/-! ## What is cancelled -/

theorem Move.nextTicket_le (hmove : Move now b answer b') :
    b.session.nextTicket ≤ b'.session.nextTicket := by
  cases hmove with
  | step hstep => exact Nat.le_of_eq hstep.engine_eq.2.2.symm
  | turnedAway | called | halted => exact Nat.le_succ _
  | started | joined | nobody => exact Nat.le_refl _

theorem Move.starts_le (hmove : Move now b answer b') :
    b.session.engine.starts ≤ b'.session.engine.starts := by
  cases hmove with
  | step hstep => exact Nat.le_of_eq hstep.engine_eq.2.1.symm
  | started => exact starts_le_start _
  | turnedAway | called | halted | joined | nobody => exact Nat.le_refl _

/-- What is cancelled remains so, whatever happens. -/
theorem Move.isCancelled (hmove : Move now b answer b') {start : Nat}
    (hstart : start ≤ b.session.engine.starts)
    (h : b.session.engine.isCancelled start = true) :
    b'.session.engine.isCancelled start = true := by
  cases hmove with
  | step hstep => rwa [hstep.isCancelled_eq]
  | started => exact isCancelled_start hstart h
  | halted => rfl
  | turnedAway | called | joined | nobody => exact h

/-- A call that is not answered was called before, or it has the next number. -/
theorem Move.mem_calls (hmove : Move now b answer b') {c : Call} (hc : c ∈ b'.calls) :
    (∃ d ∈ b.calls, d.asCalled = c.asCalled) ∨ c.ticket = b.session.nextTicket := by
  -- but for the new ones the calls are those there were, with or without a flight
  have hsame : c ∈ b.calls → ∃ d ∈ b.calls, d.asCalled = c.asCalled := fun h => ⟨c, h, rfl⟩
  cases hmove with
  | @step s s' arriving answer hstep =>
    refine .inl ?_
    rcases hstep.queue_cases with ⟨-, hqueue⟩ | ⟨first, a, hqueue, -⟩
    · have hmem := List.mem_map_of_mem (f := Call.asCalled) hc
      simp only [calls, List.map_append, hqueue] at hmem
      rw [← List.map_append] at hmem
      exact List.mem_map.1 hmem
    · refine hsame ?_
      simp only [calls, hqueue, List.cons_append]
      exact List.mem_cons_of_mem first hc
  | called | halted =>
    rw [calls, ← List.append_assoc] at hc
    rcases List.mem_append.1 hc with hc | hc
    · exact .inl (hsame hc)
    · rw [List.mem_singleton.1 hc]
      exact .inr rfl
  | @joined e queue before after n d =>
    refine .inl (hsame ?_)
    simp only [calls, List.append_assoc, List.singleton_append] at hc ⊢
    exact (List.perm_middle.append_left queue).mem_iff.2 hc
  | started | turnedAway | nobody => exact .inl (hsame hc)

/-- An answer is that of the first call in the queue, or of a call that is turned away at once. -/
theorem Move.answer_cases (hmove : Move now b answer b') {a : Nat × Answer} (ha : answer = some a) :
    (∃ c rest, b.session.queue = c :: rest ∧ c.ticket = a.1 ∧ ∀ start ∈ c.start?,
        b.session.engine.isCancelled start = true → a.2 = .pass (.error .cancelled)) ∨
      a.1 = b.session.nextTicket := by
  subst ha
  cases hmove with
  | @step s s' arriving answer hstep =>
    rcases hstep.queue_cases with ⟨hnone, -⟩ | ⟨c, _, hqueue, hanswer⟩
    · cases hnone
    · refine .inl ⟨c, s'.queue, hqueue, ?_, fun start hstart hcancelled => ?_⟩
      · rw [Option.some.injEq] at hanswer
        rw [hanswer]
      · exact hstep.answer_eq_cancelled hqueue hstart hcancelled
  | turnedAway => exact .inr rfl

/-- The call with a number is cancelled: if it is not answered yet, it is a pass that came under a
start of the engine that is over. -/
structure IsDoomed (t : Nat) (b : Lobby) : Prop where
  ticket_lt : t < b.session.nextTicket
  cancelled : ∀ c ∈ b.calls, c.ticket = t → ∃ start, c.start? = some start ∧
    start ≤ b.session.engine.starts ∧ b.session.engine.isCancelled start = true

/-- A pass that is cancelled stays so, and has no other answer. -/
theorem IsDoomed.move {t : Nat} (h : IsDoomed t b) (hmove : Move now b answer b') :
    IsDoomed t b' ∧ ∀ a, answer = some (t, a) → a = .pass (.error .cancelled) := by
  refine ⟨⟨Nat.lt_of_lt_of_le h.ticket_lt hmove.nextTicket_le, fun c hc hticket => ?_⟩,
    fun a ha => ?_⟩
  · rcases hmove.mem_calls hc with ⟨d, hd, hdc⟩ | hnew
    · have hsame : d.ticket = t := by
        rw [← d.ticket_asCalled, hdc, c.ticket_asCalled, hticket]
      obtain ⟨start, hstart, hle, hcancelled⟩ := h.cancelled d hd hsame
      rw [← d.start?_asCalled, hdc, c.start?_asCalled] at hstart
      exact ⟨start, hstart, Nat.le_trans hle hmove.starts_le, hmove.isCancelled hle hcancelled⟩
    · -- the number was given to a call before
      exact absurd h.ticket_lt (by omega)
  · rcases hmove.answer_cases ha with ⟨c, rest, hqueue, hticket, hcancelled⟩ | hnew
    · have hc : c ∈ b.calls := by simp [calls, hqueue]
      obtain ⟨start, hstart, -, hcancel⟩ := h.cancelled c hc hticket
      exact hcancelled start hstart hcancel
    · exact absurd h.ticket_lt (hnew ▸ Nat.lt_irrefl t)

/-- Whatever happens, be it that the engine is started again, a cancelled call does nothing but to
be answered as such. -/
theorem IsDoomed.course {t : Nat} {b : Lobby} (h : IsDoomed t b) (steps : List (Instant × Action)) :
    ∀ a, (t, a) ∈ (b.course steps).1 → a = .pass (.error .cancelled) := by
  induction steps generalizing b with
  | nil => rintro a ⟨⟩
  | cons step steps ih =>
    obtain ⟨now, x⟩ := step
    obtain ⟨hnext, hanswer⟩ := h.move (move_apply b now x)
    intro a ha
    rcases List.mem_append.1 ha with ha | ha
    · exact hanswer a (Option.mem_toList.1 ha)
    · exact ih hnext a ha

/-- A stop cancels the passes that were called before it and are not answered yet. -/
theorem isDoomed_stop (h : IsOrderly b.session.engine.starts b.session.nextTicket b.calls)
    {c : Call} (hc : c ∈ b.calls) {start : Nat} (hstart : c.start? = some start) :
    IsDoomed c.ticket (b.apply now .stop).2 := by
  obtain ⟨⟨e, queue, n⟩, arriving⟩ := b
  -- numbers are distinct, so that a call with the number is the call itself
  have hself : ∀ d ∈ queue ++ arriving, d.ticket = c.ticket → d = c := fun d hd hticket =>
    List.inj_on_of_nodup_map h.nodup hd hc hticket
  have hle : start ≤ e.starts := h.start_le c hc start hstart
  have hlt : c.ticket < n := h.ticket_lt c hc
  cases hrunning : e.running with
  | false =>
    -- the start under which the pass was called is over already
    simp only [apply, receive, Session.requestStop, hrunning, Bool.false_eq_true, ↓reduceIte,
      List.append_nil]
    refine ⟨Nat.lt_succ_of_lt hlt, fun d hd hticket => ?_⟩
    rw [hself d hd hticket]
    exact ⟨start, hstart, hle, by simp [Engine.isCancelled, hrunning]⟩
  | true =>
    simp only [apply, receive, Session.requestStop, hrunning, ↓reduceIte, List.nil_append]
    refine ⟨Nat.lt_succ_of_lt hlt, fun d hd hticket => ?_⟩
    rw [calls, ← List.append_assoc] at hd
    rcases List.mem_append.1 hd with hd | hd
    · rw [hself d hd hticket]
      exact ⟨start, hstart, hle, rfl⟩
    · -- the number of the stop itself is a new one
      rw [List.mem_singleton.1 hd] at hticket
      exact absurd hlt (hticket ▸ Nat.lt_irrefl n)

end Lobby

end MarketAlerts.Engine
