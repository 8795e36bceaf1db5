import MarketAlerts.Proofs.Dispatch.Interruptions

/-!
# Sends after a shutdown

A dispatch goes on until it sees that the dispatcher is shut down. What is started from then on:

- `starts_of_broken`: in a dispatch that has broken off no further event comes up, so that a lane
  starts at most the send of the event that was up already and had made no step;
- `starts_of_closed`: a dispatch that is called for after the shutdown starts no send.
-/

namespace MarketAlerts.Dispatcher.Session

variable {s : Session} {call : Nat} {r : Run}

/-- The position of the event that is up in a lane, if it has made no step. -/
def queued? (s : Session) (call lane : Nat) : Option Nat :=
  ((s.run? call).bind fun r => r.lanes[lane]?.bind Lane.current).bind Current.start?

/-- The event that is up is the current one of its lane. -/
theorem current_of_up?_eq_some {lane : Nat} {o : Outlet} {c : Current}
    (hup : s.up? r lane = some (o, c)) : r.lanes[lane]?.bind Lane.current = some c := by
  simp only [up?, Option.bind_eq_bind, Option.bind_eq_some_iff, Option.pure_def, Option.some.injEq,
    Prod.mk.injEq] at hup
  obtain ⟨o', -, l, hl, c', hc', rfl, rfl⟩ := hup
  rw [hl]
  exact hc'

/-- A step in a dispatch that has broken off leaves no event behind that has made no step. -/
theorem start?_of_step {lane : Nat} {c : Current} (hbroken : r.broken = true)
    (hcurrent : r.lanes[lane]?.bind Lane.current = some c) (lib : Template.Library) (now : Instant)
    (w : World) (o : Outlet) :
    ((r.step lib now w lane o c).1.lanes[lane]?.bind Lane.current).bind Current.start? = none := by
  obtain ⟨l, hl, hc⟩ := Option.bind_eq_some_iff.1 hcurrent
  rcases r.step_outcome lib now w lane o c with ⟨stage, hstage, hstep⟩ | ⟨sent, channel, hstep, -⟩
  · rw [hstep, Run.setStage, List.getElem?_modify_eq, hl]
    cases stage with
    | queued => cases hstage
    | written m => simp [Lane.setStage, hc, Current.start?]
    | begun m d => simp [Lane.setStage, hc, Current.start?]
  · rw [hstep, Run.settle, List.getElem?_modify_eq, hl, hbroken]
    rfl

/-- What is put in the place of a run that is under way is under way. -/
theorem run?_set (hrun : s.run? call = some r) (d : Dispatcher) (r' : Run) :
    (Session.mk d (s.calls.set call (.running r'))).run? call = some r' := by
  have hlt : call < s.calls.length := by
    by_contra hlt
    rw [run?, List.getElem?_eq_none (Nat.le_of_not_lt hlt)] at hrun
    cases hrun
  rw [run?, List.getElem?_set_self hlt]

/-- What a turn starts was up before it, and is not up any more. -/
theorem turn_of_broken (hrun : s.run? call = some r) (hbroken : r.broken = true) (now : Instant)
    (t : Turn) :
    ∃ r', (s.apply now (t.action call)).run? call = some r' ∧ r'.broken = true ∧
      ∀ lane, (inLane lane (s.start? call t).toList ++
        ((s.apply now (t.action call)).queued? call lane).toList).Sublist
          (s.queued? call lane).toList := by
  cases t with
  | step lane w =>
    rw [start?_step hrun]
    cases hup : s.up? r lane with
    | none =>
      rw [Turn.action, apply, step_of_up?_eq_none hrun hup]
      exact ⟨r, hrun, hbroken, fun other => .refl _⟩
    | some x =>
      obtain ⟨o, c⟩ := x
      have hcurrent := current_of_up?_eq_some hup
      have hagree := r.agreeBut_step lane c s.dispatcher.templates now w o
      have hnone := start?_of_step hbroken hcurrent s.dispatcher.templates now w o
      rw [Turn.action, apply, step_of_up? hrun hup, Option.bind_some]
      generalize r.step s.dispatcher.templates now w lane o c = result at hagree hnone
      refine ⟨result.1, run?_set hrun _ _, hagree.broken.trans hbroken, fun other => ?_⟩
      rw [queued?, queued?, run?_set hrun, hrun, Option.bind_some, Option.bind_some]
      by_cases hother : lane = other
      · -- the event that was up in the lane is started or past its start
        subst hother
        rw [hnone, hcurrent, inLane_map_self]
        exact (List.append_nil _).symm ▸ .refl _
      · -- the other lanes are as they were
        rw [inLane_map_ne hother, hagree.lanes other hother]
        exact .refl _
  -- other turns start nothing
  | shutdown => exact ⟨r, hrun, hbroken, fun lane => .refl _⟩
  | breakOff =>
    rw [Turn.action, apply, breakOff, hrun]
    dsimp only
    split
    next =>
      refine ⟨_, run?_set hrun _ _, rfl, fun lane => ?_⟩
      rw [queued?, queued?, setRun, run?_set hrun, hrun]
      exact .refl _
    next => exact ⟨r, hrun, hbroken, fun lane => .refl _⟩
  | setEnabled name enabled => exact ⟨r, hrun, hbroken, fun lane => .refl _⟩
  | update name patch => exact ⟨r, hrun, hbroken, fun lane => .refl _⟩

/-- Once a dispatch has broken off, a lane starts at most the send of the event that was up already
and had made no step. -/
theorem starts_of_broken (hrun : s.run? call = some r) (hbroken : r.broken = true)
    (turns : List (Instant × Turn)) (lane : Nat) :
    (inLane lane (s.starts call turns)).Sublist (s.queued? call lane).toList := by
  induction turns generalizing s r with
  | nil => exact List.nil_sublist _
  | cons x turns ih =>
    obtain ⟨r', hrun', hbroken', hsublist⟩ := turn_of_broken hrun hbroken x.1 x.2
    rw [starts, inLane_append]
    -- later turns start at most what is queued after this one
    exact ((ih hrun' hbroken').append_left _).trans (hsublist lane)

theorem start?_of_run?_eq_none (hrun : s.run? call = none) (t : Turn) :
    s.start? call t = none := by
  cases t with
  | step lane w => rw [start?, hrun, Option.bind_none, Option.bind_none]
  | _ => rfl

/-- A dispatch that is not under way does not come to be so by its turns. -/
theorem run?_turn_eq_none (hrun : s.run? call = none) (now : Instant) (t : Turn) :
    (s.apply now (t.action call)).run? call = none := by
  cases t with
  | step lane w => rwa [Turn.action, apply, Session.step, hrun]
  | breakOff => rwa [Turn.action, apply, breakOff, hrun]
  | _ => exact hrun

/-- A dispatch that is called for after the shutdown starts no send. -/
theorem starts_of_closed {d : Dispatcher} (hclosed : d.closed = true) (calls : List Call)
    (events : List Event) (turns : List (Instant × Turn)) :
    ((Session.mk d calls).call events).starts calls.length turns = [] := by
  have hrun : ((Session.mk d calls).call events).run? calls.length = none := by
    rw [Session.call, hclosed, if_pos rfl, run?, List.getElem?_concat_length]
  generalize (Session.mk d calls).call events = s at hrun
  induction turns generalizing s with
  | nil => rfl
  | cons x turns ih =>
    rw [starts, start?_of_run?_eq_none hrun]
    exact ih _ (run?_turn_eq_none hrun x.1 x.2)

/-- The send of an event that was up before the shutdown can be started after it. -/
example :
    let now : Instant := ⟨0, 0⟩
    let s := ((Session.mk ofTwo []).call [default]).after 0 [(now, .shutdown), (now, .breakOff)]
    s.dispatcher.closed = true ∧ s.starts 0 [(now, .step 0 Occasion.silent.world)] = [(0, 0)] := by
  decide +kernel

end MarketAlerts.Dispatcher.Session
