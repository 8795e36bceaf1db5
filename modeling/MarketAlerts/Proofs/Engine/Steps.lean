import MarketAlerts.Engine.Session
import MarketAlerts.Proofs.Watchlist.Edits

/-!
# Courses of happenings

A `Happening` is a step of a session or an edit of its watchlist, and `Session.course` follows
happenings in any order: calls for passes wait, begin, evaluate their conditions one by one and end,
and in between the watchlist is edited.

- `step_advance`: everything that a step of the first call can be (`Session.Step`);
- `requested_or_step`: everything else is something called for, which waits behind the first call
  or is turned away (`Session.Requested`).
-/

namespace MarketAlerts.Engine

/-- The pass of a call, once it has begun. -/
def Call.flight? : Call → Option Flight
  | .pass _ _ _ flight => flight
  | .drain _ => none

namespace Session

/-! ## Courses -/

/-- What can happen to a session and its watchlist. -/
inductive Happening where
  /-- A call or a step. -/
  | act (a : Action)
  /-- An edit of the watchlist. -/
  | edit (d : Watchlist.Edit)

/-- The edit, if it is one. -/
def Happening.edit? : Happening → Option Watchlist.Edit
  | .act _ => none
  | .edit d => some d

/-- The answer, if a call is answered, and the session after a happening. -/
def happen (s : Session) (now : Instant) : Happening → Option (Nat × Answer) × Session
  | .act a => s.apply now a
  | .edit d => (none, { s with
      engine := { s.engine with watchlist := s.engine.watchlist.edit d } })

/-- The answers in the course of happenings, each at its time, and the session after them. -/
def course (s : Session) : List (Instant × Happening) → List (Nat × Answer) × Session
  | [] => ([], s)
  | (now, x) :: rest =>
    let (answer, s) := s.happen now x
    let (answers, s) := s.course rest
    (answer.toList ++ answers, s)

/-- The pass in flight. -/
def flight? (s : Session) : Option Flight := s.queue.head?.bind Call.flight?

/-! ## Calls -/

/-- What a call does at once: it waits behind the others, or it is turned away. -/
structure Requested (s : Session) (answer : Option (Nat × Answer)) (s' : Session) : Prop where
  watchlist : s'.engine.watchlist = s.engine.watchlist
  settings : s'.engine.settings = s.engine.settings
  queue : ∃ calls, s'.queue = s.queue ++ calls ∧ ∀ c ∈ calls, c.flight? = none
  answer : ∀ a ∈ answer, a.2 = .stopped ∨ a.2 = .pass (.error .notRunning)

section Requested

variable {s s' : Session} {answer : Option (Nat × Answer)}

/-- A call that is turned away leaves the queue. -/
theorem requested_of_queue_eq (hwatchlist : s'.engine.watchlist = s.engine.watchlist)
    (hsettings : s'.engine.settings = s.engine.settings) (hqueue : s'.queue = s.queue)
    (hanswer : ∀ a ∈ answer, a.2 = .stopped ∨ a.2 = .pass (.error .notRunning)) :
    Requested s answer s' where
  watchlist := hwatchlist
  settings := hsettings
  queue := ⟨[], by rw [hqueue, List.append_nil], fun c hc => by cases hc⟩
  answer := hanswer

/-- A call that waits comes last in the queue. -/
theorem requested_of_queue_concat (hwatchlist : s'.engine.watchlist = s.engine.watchlist)
    (hsettings : s'.engine.settings = s.engine.settings) {c : Call} (hc : c.flight? = none)
    (hqueue : s'.queue = s.queue ++ [c]) : Requested s none s' where
  watchlist := hwatchlist
  settings := hsettings
  queue := ⟨[c], hqueue, fun d hd => List.mem_singleton.1 hd ▸ hc⟩
  answer a ha := by cases ha

/-- A pass that is in flight after a call was in flight before. -/
theorem Requested.head?_eq (h : Requested s answer s') {c : Call} (hhead : s'.queue.head? = some c)
    (hc : c.flight?.isSome) : s.queue.head? = some c := by
  obtain ⟨calls, hqueue, hcalls⟩ := h.queue
  rw [hqueue, List.head?_append] at hhead
  cases hfirst : s.queue.head? with
  | some first => simpa [hfirst] using hhead
  | none =>
    -- the call would be a new one
    rw [hfirst, Option.none_or] at hhead
    simp [hcalls c (List.mem_of_mem_head? hhead)] at hc

/-- No call puts a pass into flight at once. -/
theorem Requested.flight?_eq (h : Requested s answer s') : s'.flight? = s.flight? := by
  obtain ⟨calls, hqueue, hcalls⟩ := h.queue
  unfold flight?
  rw [hqueue, List.head?_append]
  cases s.queue.head? with
  | some first => rfl
  | none =>
    -- the first call is a new one, if there is any
    cases hfirst : calls.head? with
    | none => rfl
    | some c => simp [hcalls c (List.mem_of_mem_head? hfirst)]

/-- Behind the first call none is in flight, if it was so before. -/
theorem Requested.waiting (h : Requested s answer s')
    (hwaiting : ∀ c ∈ s.queue.tail, c.flight? = none) : ∀ c ∈ s'.queue.tail, c.flight? = none := by
  obtain ⟨calls, hqueue, hcalls⟩ := h.queue
  intro c hc
  rw [hqueue] at hc
  cases hs : s.queue with
  | nil =>
    rw [hs, List.nil_append] at hc
    exact hcalls c (List.mem_of_mem_tail hc)
  | cons first rest =>
    rw [hs, List.cons_append, List.tail_cons, List.mem_append] at hc
    rcases hc with hc | hc
    · exact hwaiting c (by rwa [hs])
    · exact hcalls c hc

end Requested

/-! ## Steps of the first call -/

/-- What a step of the first call can be, with the answer if the call is answered. -/
inductive Step (now : Instant) : Session → Option (Nat × Answer) → Session → Prop
  /-- There is no call. -/
  | idle {e : Engine} {n : Nat} : Step now ⟨e, [], n⟩ none ⟨e, [], n⟩
  /-- A stop has waited for the calls before it. -/
  | drained {e : Engine} {n ticket : Nat} {rest : List Call} :
    Step now ⟨e, .drain ticket :: rest, n⟩ (some (ticket, .stopped)) ⟨e, rest, n⟩
  /-- A pass is cancelled before it begins. -/
  | refused {e : Engine} {n ticket start : Nat} {snapshot : Snapshot} {rest : List Call}
    (hcancelled : e.isCancelled start = true) :
    Step now ⟨e, .pass ticket start snapshot none :: rest, n⟩
      (some (ticket, .pass (.error .cancelled))) ⟨e, rest, n⟩
  /-- A pass finds no conditions. -/
  | empty {e : Engine} {n ticket start : Nat} {snapshot : Snapshot} {rest : List Call}
    (hcancelled : e.isCancelled start = false)
    (hitems : (e.watchlist.beginPass snapshot.symbol).1 = []) :
    Step now ⟨e, .pass ticket start snapshot none :: rest, n⟩
      (some (ticket, .pass (.ok []))) ⟨(e.beginPass now snapshot.symbol).2.2, rest, n⟩
  /-- A pass begins. -/
  | begun {e : Engine} {n ticket start : Nat} {snapshot : Snapshot} {rest : List Call}
    (hcancelled : e.isCancelled start = false)
    (hitems : (e.watchlist.beginPass snapshot.symbol).1 ≠ []) :
    Step now ⟨e, .pass ticket start snapshot none :: rest, n⟩ none
      ⟨(e.beginPass now snapshot.symbol).2.2,
        .pass ticket start snapshot (some (.ofItems (e.beginPass now snapshot.symbol).1
          (e.watchlist.beginPass snapshot.symbol).1)) :: rest, n⟩
  /-- A pass in flight is cancelled. -/
  | aborted {e : Engine} {n ticket start : Nat} {snapshot : Snapshot} {rest : List Call}
    {f : Flight} (hcancelled : e.isCancelled start = true) :
    Step now ⟨e, .pass ticket start snapshot (some f) :: rest, n⟩
      (some (ticket, .pass (.error .cancelled)))
      ⟨{ e with watchlist := e.watchlist.abortPass f.ids }, rest, n⟩
  /-- The outcomes of a pass are committed. -/
  | committed {e : Engine} {n ticket start : Nat} {snapshot : Snapshot} {rest : List Call}
    {f : Flight} (hcancelled : e.isCancelled start = false) (hpending : f.pending = []) :
    Step now ⟨e, .pass ticket start snapshot (some f) :: rest, n⟩
      (some (ticket, .pass (e.commitPass f.context now f.outcomes).1))
      ⟨(e.commitPass f.context now f.outcomes).2, rest, n⟩
  /-- A pass in flight evaluates one of its conditions. -/
  | evaluated {e : Engine} {n ticket start : Nat} {snapshot : Snapshot} {rest : List Call}
    {f : Flight} {i : Nat} {item : PassItem} (hcancelled : e.isCancelled start = false)
    (hi : i ∈ f.pending) (hitem : f.items[i]? = some item)
    (houtcome : e.settings.strategy = .sequential →
      (item.outcome? e.settings.historyLimit snapshot).isSome) :
    Step now ⟨e, .pass ticket start snapshot (some f) :: rest, n⟩ none
      ⟨e, .pass ticket start snapshot (some { f with
        results := f.results.set i (some (item.outcome? e.settings.historyLimit snapshot)) })
          :: rest, n⟩
  /-- A pass from condition to condition breaks off at one whose evaluation overflows. -/
  | broken {e : Engine} {n ticket start : Nat} {snapshot : Snapshot} {rest : List Call}
    {f : Flight} {i : Nat} {item : PassItem} (hcancelled : e.isCancelled start = false)
    (hstrategy : e.settings.strategy = .sequential) (hi : i ∈ f.pending)
    (hitem : f.items[i]? = some item)
    (houtcome : item.outcome? e.settings.historyLimit snapshot = none) :
    Step now ⟨e, .pass ticket start snapshot (some f) :: rest, n⟩
      (some (ticket, .pass (.error .overflow))) ⟨e, rest, n⟩

/-- The condition that a step of a pass takes up is one of those that are pending. -/
theorem exists_item_of_mem_pending {f : Flight} {i : Nat} (hi : i ∈ f.pending) :
    ∃ item, f.items[i]? = some item := by
  rw [Flight.pending, List.mem_filter, List.mem_range] at hi
  exact ⟨f.items[i], List.getElem?_eq_getElem hi.1⟩

section Step

variable {e : Engine} {now : Instant} {pick n ticket start : Nat} {snapshot : Snapshot}
  {rest : List Call}

/-- What a pass does that has not begun: it is cancelled, it finds no conditions, or it begins. -/
theorem step_advance_waiting :
    let s : Session := ⟨e, .pass ticket start snapshot none :: rest, n⟩
    Step now s (s.advance now pick).1 (s.advance now pick).2 := by
  intro s
  unfold Session.advance
  dsimp only [s]
  cases hcancelled : e.isCancelled start with
  | true =>
    rw [if_pos rfl]
    exact .refused hcancelled
  | false =>
    rw [if_neg Bool.false_ne_true]
    split
    next hitems => exact .empty hcancelled (List.isEmpty_iff.1 hitems)
    next hitems => exact .begun hcancelled fun h => hitems (List.isEmpty_iff.2 h)

/-- What a pass does in flight: it is cancelled, it goes on, it breaks off, or it ends. -/
theorem step_advance_flight (f : Flight) :
    let s : Session := ⟨e, .pass ticket start snapshot (some f) :: rest, n⟩
    Step now s (s.advance now pick).1 (s.advance now pick).2 := by
  intro s
  unfold Session.advance stepFlight
  dsimp only [s]
  cases hcancelled : e.isCancelled start with
  | true =>
    rw [if_pos rfl]
    exact .aborted hcancelled
  | false =>
    rw [if_neg Bool.false_ne_true]
    cases hpending : f.pending with
    | nil => exact .committed hcancelled hpending
    | cons first others =>
      have hfirst : first ∈ f.pending := hpending ▸ List.mem_cons_self
      cases hstrategy : e.settings.strategy with
      | sequential =>
        -- only a pass from condition to condition breaks off
        obtain ⟨item, hitem⟩ := exists_item_of_mem_pending hfirst
        simp only [hitem]
        cases houtcome : item.outcome? e.settings.historyLimit snapshot with
        | none => exact .broken hcancelled hstrategy hfirst hitem houtcome
        | some o =>
          have hstep : Step now ⟨e, .pass ticket start snapshot (some f) :: rest, n⟩ none _ :=
            .evaluated hcancelled hfirst hitem fun _ => by rw [houtcome, Option.isSome_some]
          rwa [houtcome] at hstep
      | parallel =>
        -- whichever condition is picked, it is one that is pending
        have hpick : (if f.pending.contains pick then pick else first) ∈ f.pending := by
          split
          next h => simpa using h
          next => exact hfirst
        obtain ⟨item, hitem⟩ := exists_item_of_mem_pending hpick
        rw [hpending] at hitem
        simp only [hitem]
        exact .evaluated hcancelled (hpending ▸ hpick) hitem fun h => by
          rw [hstrategy] at h
          cases h

end Step

/-- Every step of the first call is one of these. -/
theorem step_advance (s : Session) (now : Instant) (pick : Nat) :
    Step now s (s.advance now pick).1 (s.advance now pick).2 := by
  obtain ⟨e, queue, n⟩ := s
  cases queue with
  | nil => exact .idle
  | cons c rest =>
    cases c with
    | drain ticket => exact .drained
    | pass ticket start snapshot flight =>
      cases flight with
      | none => exact step_advance_waiting
      | some f => exact step_advance_flight f

/-- Whatever a session does, either something is called for or the first call makes a step. -/
theorem requested_or_step (s : Session) (now : Instant) (a : Action) :
    Requested s (s.apply now a).1 (s.apply now a).2 ∨
      Step now s (s.apply now a).1 (s.apply now a).2 := by
  cases a with
  | start =>
    refine .inl ?_
    simp only [Session.apply, Session.start, Engine.start]
    split
    next => exact requested_of_queue_eq rfl rfl rfl (by rintro a ⟨⟩)
    next => exact requested_of_queue_eq rfl rfl rfl (by rintro a ⟨⟩)
  | pass snapshot =>
    refine .inl ?_
    simp only [Session.apply, requestPass]
    split
    next => exact requested_of_queue_concat rfl rfl rfl rfl
    next => exact requested_of_queue_eq rfl rfl rfl (by rintro a ⟨⟩; exact .inr rfl)
  | stop =>
    refine .inl ?_
    simp only [Session.apply, requestStop]
    split
    next => exact requested_of_queue_concat rfl rfl rfl rfl
    next => exact requested_of_queue_eq rfl rfl rfl (by rintro a ⟨⟩; exact .inl rfl)
  | advance pick => exact .inr (step_advance s now pick)

end Session

end MarketAlerts.Engine
