import MarketAlerts.Proofs.Engine.Steps
import MarketAlerts.Proofs.Watchlist.Marks

/-!
# Cancelled passes leave no trace

What edits make of the watchlist while passes begin and are cancelled.

- `Session.Follows.course`: where no pass is committed and none breaks off in the middle, the
  watchlist is what the edits alone make of it, but for the marks of a pass that is still in flight;
- `abortPass_editAll_beginPass`: so a pass that is cancelled leaves no trace, whatever edits were
  made while it was in flight and however many conditions it had evaluated.
-/

namespace MarketAlerts

namespace Engine

/-- Whether an answer tells neither of a committed pass nor of one that broke off. -/
def Answer.declines : Answer → Bool
  | .pass (.error .cancelled) => true
  | .pass (.error .notRunning) => true
  | .pass _ => false
  | .stopped => true

namespace Session

/-- The edits among happenings. -/
def edits (steps : List (Instant × Happening)) : List Watchlist.Edit :=
  steps.filterMap fun (_, x) => x.edit?

/-- The conditions of the pass in flight. -/
def marked (s : Session) : List String :=
  (s.flight?.map Flight.ids).getD []

/-- The watchlist of a session is `l` but for the marks of the pass in flight, and only the first
call can be in flight. -/
structure Follows (l : Watchlist) (s : Session) : Prop where
  shadowed : Watchlist.Shadowed s.marked l s.engine.watchlist
  waiting : ∀ c ∈ s.queue.tail, c.flight? = none

section Follows

variable {l : Watchlist} {s : Session}

theorem marked_eq_nil (hqueue : ∀ c ∈ s.queue, c.flight? = none) : s.marked = [] := by
  unfold marked flight?
  cases hhead : s.queue.head? with
  | none => rfl
  | some c => simp [hqueue c (List.mem_of_mem_head? hhead)]

/-- Without a pass in flight the watchlist has no marks. -/
theorem follows_of_waiting (hshadowed : Watchlist.Shadowed [] l s.engine.watchlist)
    (hqueue : ∀ c ∈ s.queue, c.flight? = none) : Follows l s :=
  ⟨(marked_eq_nil hqueue).symm ▸ hshadowed, fun c hc => hqueue c (List.mem_of_mem_tail hc)⟩

/-- A new call waits behind the others. -/
theorem Follows.requested (h : Follows l s) {answer : Option (Nat × Answer)} {s' : Session}
    (hrequested : Requested s answer s') : Follows l s' := by
  refine ⟨?_, hrequested.waiting h.waiting⟩
  rw [marked, hrequested.flight?_eq, hrequested.watchlist]
  exact h.shadowed

/-- A commit is not answered by a refusal. -/
theorem not_declines_commitPass (e : Engine) (context : PassContext) (now : Instant)
    (outcomes : List Outcome) :
    (Answer.pass (e.commitPass context now outcomes).1).declines = false := by
  unfold commitPass
  split <;> rfl

/-- A step that neither commits a pass nor breaks one off leaves the watchlist as it is, but for
marks. -/
theorem Follows.step (h : Follows l s) (hnodup : l.ids.Nodup) {now : Instant}
    {answer : Option (Nat × Answer)} {s' : Session} (hstep : Step now s answer s')
    (hanswer : ∀ a ∈ answer, a.2.declines = true) : Follows l s' := by
  cases hstep with
  | idle => exact h
  | drained => exact follows_of_waiting h.shadowed h.waiting
  | refused hcancelled => exact follows_of_waiting h.shadowed h.waiting
  | empty hcancelled hitems => simpa [Answer.declines] using hanswer _ rfl
  | begun hcancelled hitems => exact ⟨h.shadowed.beginPass hnodup _, h.waiting⟩
  | aborted hcancelled => exact follows_of_waiting h.shadowed.abortPass h.waiting
  | committed hcancelled hpending => simpa [not_declines_commitPass] using hanswer _ rfl
  | evaluated hcancelled hi hitem houtcome => exact ⟨h.shadowed, h.waiting⟩
  | broken hcancelled hstrategy hi hitem houtcome =>
    simpa [Answer.declines] using hanswer _ rfl

/-- What happens without the answer to a pass makes of the watchlist what its edits make of it, but
for marks. -/
theorem Follows.happen (h : Follows l s) (hnodup : l.ids.Nodup) (now : Instant) (x : Happening)
    (hanswer : ∀ a ∈ (s.happen now x).1, a.2.declines = true) :
    Follows (l.editAll x.edit?.toList) (s.happen now x).2 := by
  cases x with
  | edit d => exact ⟨h.shadowed.edit d, h.waiting⟩
  | act a =>
    rcases requested_or_step s now a with hrequested | hstep
    · exact h.requested hrequested
    · exact h.step hnodup hstep hanswer

/-- Where no pass is committed and none breaks off in the middle, the watchlist is what the edits
alone make of it, but for the marks of a pass in flight. -/
theorem Follows.course (h : Follows l s) (hnodup : l.ids.Nodup)
    (steps : List (Instant × Happening))
    (hanswers : ∀ a ∈ (s.course steps).1, a.2.declines = true) :
    Follows (l.editAll (edits steps)) (s.course steps).2 := by
  induction steps generalizing l s with
  | nil => exact h
  | cons step steps ih =>
    obtain ⟨now, x⟩ := step
    -- the edits of the first happening come before all others
    have hfirst := h.happen hnodup now x fun a ha =>
      hanswers a (List.mem_append_left _ (Option.mem_toList.2 ha))
    have hedits : edits ((now, x) :: steps) = x.edit?.toList ++ edits steps := by
      cases hx : x.edit? <;> simp [edits, hx]
    rw [hedits, Watchlist.editAll, List.foldl_append]
    exact ih hfirst (Watchlist.nodup_ids_editAll hnodup _) fun a ha =>
      hanswers a (List.mem_append_right _ ha)

end Follows

end Session

end Engine

open Engine Session in
/-- A cancelled pass leaves no trace. For every watchlist and all edits between the two ends of a
pass, what the cancelled pass leaves is what the edits alone would have made: the same conditions
with all their fields and the same memories, in the same order. The same holds of a session at every
moment at which the pass in flight turns out to be cancelled, whatever calls, steps and edits came
before and however many conditions of the pass were evaluated, as long as no earlier pass was
committed or broke off. -/
theorem Watchlist.abortPass_editAll_beginPass {l : Watchlist} (h : l.Reachable) :
    (∀ (symbol : String) (ds : List Edit),
      (((l.beginPass symbol).2.editAll ds).abortPass
        ((l.beginPass symbol).1.map (·.condition.id))).items = (l.editAll ds).items) ∧
    ∀ (e : Engine) (n : Nat) (steps : List (Instant × Happening)), e.watchlist = l →
      let course := (Session.mk e [] n).course steps
      (∀ a ∈ course.1, a.2.declines = true) →
      ∀ (ticket start : Nat) (snapshot : Snapshot) (f : Flight) (rest : List Call),
        course.2.queue = .pass ticket start snapshot (some f) :: rest →
        course.2.engine.isCancelled start = true →
        ∀ (now : Instant) (pick : Nat), ∃ s, course.2.advance now pick =
          (some (ticket, .pass (.error .cancelled)), s) ∧
          s.engine.watchlist.items = (l.editAll (edits steps)).items := by
  constructor
  · intro symbol ds
    -- the pass brings marks, the edits keep the relation to the watchlist without them
    have hmarked := (Shadowed.refl l).beginPass h.nodup symbol
    exact (hmarked.editAll ds).abortPass.items_eq
  · intro e n steps he course hanswers ticket start snapshot f rest hqueue hcancelled now pick
    have hbefore : Follows l (Session.mk e [] n) :=
      follows_of_waiting (he ▸ Shadowed.refl l) fun c hc => by simp at hc
    have hfollows : Follows (l.editAll (edits steps)) course.2 :=
      hbefore.course h.nodup steps hanswers
    -- the marks that are left are exactly those of the pass in flight
    have hshadowed : Shadowed f.ids (l.editAll (edits steps)) course.2.engine.watchlist := by
      have hmarked := hfollows.shadowed
      rwa [marked, flight?, hqueue] at hmarked
    refine ⟨{ course.2 with
      engine := { course.2.engine with
        watchlist := course.2.engine.watchlist.abortPass f.ids }
      queue := rest }, ?_, hshadowed.abortPass.items_eq⟩
    rw [Session.advance, hqueue]
    simp only [stepFlight, if_pos hcancelled]

open Engine Session in
/-- A pass that is cancelled after the first of its two conditions. Meanwhile one of them was
switched off, and the other one was registered anew. -/
theorem Watchlist.abortPass_editAll_beginPass_two :
    let l := (({} : Watchlist).edit (.register (.priceAbove "c1" "BTCUSDT"))).edit
      (.register (.priceAbove "c2" "BTCUSDT"))
    let snapshot := (Quote.ofPrice "BTCUSDT" (.ofInt64 101)).atTime ⟨0, 0⟩
    let ds := [.setActive "c1" false, .unregister "c2", .register (.priceAbove "c2" "ETHUSDT")]
    let happenings : List Happening :=
      [.act (.pass snapshot), .act (.advance 0), .act (.advance 0)] ++ ds.map .edit ++ [.act .stop]
    let s := ((Session.mk { watchlist := l, running := true } [] 0).course
      (happenings.map fun x => (⟨0, 0⟩, x))).2
    l.Reachable ∧ s.engine.isCancelled 0 = true ∧
      (s.advance ⟨0, 0⟩ 0).1.map Prod.fst = some 0 ∧
      (s.advance ⟨0, 0⟩ 0).2.engine.watchlist.items = (l.editAll ds).items := by
  intro l snapshot ds happenings s
  have hreach : l.Reachable := .edit _ (.edit _ .empty)
  have hanswers : ((Session.mk { watchlist := l, running := true } [] 0).course
      (happenings.map fun x => (⟨0, 0⟩, x))).1 = [] := rfl
  obtain ⟨s', hs', hitems⟩ := (abortPass_editAll_beginPass hreach).2
    { watchlist := l, running := true } 0 (happenings.map fun x => (⟨0, 0⟩, x)) rfl
    (fun a ha => by rw [hanswers] at ha; cases ha) 0 0 snapshot _ _ rfl rfl ⟨0, 0⟩ 0
  have hadvance : s.advance ⟨0, 0⟩ 0 = _ := hs'
  exact ⟨hreach, rfl, by rw [hadvance]; rfl, by rw [hadvance]; exact hitems⟩

end MarketAlerts
