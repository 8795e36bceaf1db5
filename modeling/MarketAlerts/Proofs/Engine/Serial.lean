import MarketAlerts.Proofs.Engine.Isolation
import MarketAlerts.Proofs.Engine.Runs
import MarketAlerts.Proofs.Engine.Tickets

/-!
# Passes are run one at a time

Whatever the order in which calls look at the engine, join the queue and act, and whenever the
engine is started and stopped: in the end the completed passes have been run one after the other,
each at once, in the order in which they joined the queue.

- `Engine.evaluateEach`: passes that are run one after the other;
- `Serves.move`: what an action preserves, where the other engine runs the pass that the action
  completes;
- `Lobby.course_serial`: what a course does to the conditions and the events that it delivers.
-/

namespace MarketAlerts.Engine

/-! ## One after the other -/

/-- A pass that is answered with its events. -/
structure Completion where
  /-- The number of the call. -/
  ticket : Nat
  /-- What the pass is over. -/
  snapshot : Snapshot
  /-- When it began. -/
  began : Instant
  /-- When it ended. -/
  ended : Instant

namespace Completion

/-- What conditions notice of it. -/
def deed (c : Completion) : Deed := .pass c.began c.ended c.snapshot

/-- The number and the snapshot of the call. -/
def order (c : Completion) : Nat × Snapshot := (c.ticket, c.snapshot)

end Completion

/-- The pass of the first call, if the call is answered with its events. -/
def completion? (now : Instant) : Option (Nat × Answer) → Option Call → Option Completion
  | some (ticket, .pass (.ok _)), some (.pass _ _ snapshot flight) =>
    some ⟨ticket, snapshot, (flight.map (·.context.timestamp)).getD now, now⟩
  | _, _ => none

/-- A pass is complete once its call is answered with events. -/
theorem exists_of_completion?_eq_some {now : Instant} {answer : Option (Nat × Answer)}
    {head : Option Call} {c : Completion} (h : completion? now answer head = some c) :
    ∃ events, answer = some (c.ticket, .pass (.ok events)) := by
  unfold completion? at h
  split at h
  next events _ _ _ _ =>
    obtain rfl := Option.some.inj h
    exact ⟨events, rfl⟩
  next => cases h

/-- Runs passes one after the other. -/
def evaluateEach (e : Engine) : List Completion → List (Nat × Answer) × Engine
  | [] => ([], e)
  | c :: rest =>
    let (result, e) := e.evaluateBetween c.began c.ended c.snapshot
    let (answers, e) := e.evaluateEach rest
    ((c.ticket, .pass result) :: answers, e)

/-- The events that an answer delivers, but for what is drawn at random. -/
def delivery? : Nat × Answer → Option (Nat × List Event)
  | (ticket, .pass (.ok events)) => some (ticket, events.map Event.unnumbered)
  | _ => none

namespace Lobby

/-- The passes that are completed in the course of actions. -/
def completed (b : Lobby) : List (Instant × Action) → List Completion
  | [] => []
  | (now, a) :: rest =>
    (completion? now (b.apply now a).1 b.session.queue.head?).toList ++
      (b.apply now a).2.completed rest

end Lobby

/-- The watchlist as it would be if the pass in flight were cancelled. -/
def Session.settled (s : Session) : Watchlist := s.engine.watchlist.abortPass s.marked

theorem eq_nil_of_evaluateEach_fst_eq_nil {e : Engine} {cs : List Completion}
    (h : (e.evaluateEach cs).1 = []) : cs = [] := by
  cases cs with
  | nil => rfl
  | cons c cs => cases h

theorem evaluateEach_append (e : Engine) (cs ds : List Completion) :
    e.evaluateEach (cs ++ ds) =
      ((e.evaluateEach cs).1 ++ ((e.evaluateEach cs).2.evaluateEach ds).1,
        ((e.evaluateEach cs).2.evaluateEach ds).2) := by
  induction cs generalizing e with
  | nil => rfl
  | cons c cs ih => simp [evaluateEach, ih]

/-- Where keys are distinct and come in the order of `keys`, a list consists of what it has for each
of the keys. -/
theorem flatMap_filter_eq_self {α β : Type*} [DecidableEq β] {f : α → β} {keys : List β}
    (hnodup : keys.Nodup) {xs : List α} (h : (xs.map f).Sublist keys) :
    keys.flatMap (fun k => xs.filter fun x => f x = k) = xs := by
  induction keys generalizing xs with
  | nil =>
    rw [List.sublist_nil, List.map_eq_nil_iff] at h
    rw [h, List.flatMap_nil]
  | cons k keys ih =>
    obtain ⟨hk, hkeys⟩ := List.nodup_cons.1 hnodup
    rw [List.flatMap_cons]
    -- the first key is that of the first entry, or of none
    generalize hys : xs.map f = ys at h
    cases h with
    | cons _ hrest =>
      have hnone : xs.filter (fun x => f x = k) = [] := by
        rw [List.filter_eq_nil_iff]
        intro x hx hxk
        have hmem : f x ∈ ys := hys ▸ List.mem_map_of_mem hx
        exact hk (of_decide_eq_true hxk ▸ hrest.subset hmem)
      rw [hnone, List.nil_append, ih hkeys (hys ▸ hrest)]
    | cons_cons _ hrest =>
      obtain ⟨x, xs', rfl, rfl, rfl⟩ := List.map_eq_cons_iff.1 hys
      have hnone : xs'.filter (fun y => f y = f x) = [] := by
        rw [List.filter_eq_nil_iff]
        intro y hy hyx
        exact hk (of_decide_eq_true hyx ▸ hrest.subset (List.mem_map_of_mem hy))
      have hothers : ∀ l ∈ keys, (x :: xs').filter (fun y => f y = l) =
          xs'.filter (fun y => f y = l) := by
        intro l hl
        have hne : f x ≠ l := fun hxl => hk (hxl ▸ hl)
        rw [List.filter_cons, if_neg (by simpa using hne)]
      rw [List.filter_cons, if_pos (by simp), hnone, List.flatMap_congr hothers, ih hkeys hrest,
        List.singleton_append]

/-- Two lists whose keys come in the same order are equal if they have the same for each key. -/
theorem eq_of_filter_eq {α β : Type*} [DecidableEq β] {f : α → β} {keys : List β}
    (hnodup : keys.Nodup) {xs ys : List α} (hxs : (xs.map f).Sublist keys)
    (hys : (ys.map f).Sublist keys)
    (h : ∀ k, xs.filter (fun x => f x = k) = ys.filter fun x => f x = k) : xs = ys := by
  rw [← flatMap_filter_eq_self hnodup hxs, ← flatMap_filter_eq_self hnodup hys]
  exact List.flatMap_congr fun k _ => h k

/-! ## What an action preserves -/

namespace Session

variable {l : Watchlist} {s s' : Session} {now : Instant} {answer : Option (Nat × Answer)}

/-- Steps register nothing and remove nothing. -/
theorem Step.ids_eq (h : Step now s answer s') :
    s'.engine.watchlist.ids = s.engine.watchlist.ids := by
  cases h with
  | empty | begun => exact Watchlist.ids_beginPass
  | aborted => exact Watchlist.ids_abortPass _ _
  | @committed e _ _ _ _ _ f =>
    unfold commitPass
    split
    next => rfl
    next next _ => exact Watchlist.ids_commitPass e.watchlist f.outcomes
  | idle | drained | refused | evaluated | broken => rfl

/-- An answer with events is that of a pass, which is the first call. -/
theorem Step.completion?_eq_none_iff (h : Step now s answer s') :
    completion? now answer s.queue.head? = none ↔ answer.bind delivery? = none := by
  cases h with
  | @committed e _ _ _ _ _ f =>
    cases hresult : (e.commitPass f.context now f.outcomes).1 <;>
      simp [completion?, delivery?]
  | idle | begun | evaluated | drained | refused | empty | aborted | broken =>
    simp [completion?, delivery?]

/-- A pass that is complete is a deed. -/
theorem completed?_eq_map (now : Instant) (answer : Option (Nat × Answer)) (head : Option Call) :
    completed? now answer head = (completion? now answer head).map Completion.deed := by
  unfold completed?
  split
  next => rfl
  next hother =>
    -- the two definitions tell the same cases apart
    rw [completion?.eq_2 now answer head hother, Option.map_none]

/-- Once a call is answered, no pass is in flight. -/
theorem Tracks.marked_eq_nil (h : Tracks l s) (hstep : Step now s answer s')
    (hanswer : answer.isSome) : s'.marked = [] := by
  rcases hstep.queue_cases with ⟨hnone, -⟩ | ⟨c, a, hqueue, -⟩
  · simp [hnone] at hanswer
  · refine Session.marked_eq_nil fun d hd => h.waiting d ?_
    rwa [hqueue, List.tail_cons]

/-- A pass that is completed step by step would have given its events at once. -/
theorem Tracks.isOk_evaluateBetween (h : Tracks l s) (hstep : Step now s answer s')
    {c : Completion} (hc : completion? now answer s.queue.head? = some c) {e : Engine}
    (hitems : e.watchlist.items = l.items) (hsettings : e.settings = s.engine.settings)
    (hrunning : e.running = true) :
    ∃ events e', e.evaluateBetween c.began c.ended c.snapshot = (.ok events, e') := by
  refine Engine.isOk_evaluateBetween hrunning fun hne => ?_
  rw [Watchlist.beginPass_fst_eq_of_items_eq hitems] at hne ⊢
  cases hstep with
  | @empty e' n ticket start snapshot rest hcancelled hempty =>
    cases hc
    have hshadowed : Watchlist.Shadowed [] l e'.watchlist := h.shadowed
    rw [Watchlist.beginPass_fst_eq_of_items_eq hshadowed.items_eq] at hempty
    exact absurd hempty hne
  -- the outcomes are all there already, so that the pass at once cannot fail on one
  | @committed e' n ticket start snapshot rest f hcancelled hpending =>
    have hevaluates := h.flight ticket start snapshot f rfl
    have houtcomes := hevaluates.toRecords.outcomes?_eq hpending
    cases hdue : dueAt? e'.settings.interval now with
    | none => simp [completion?, commitPass, hdue] at hc
    | some next =>
      simp only [completion?, commitPass, hdue, List.head?_cons, Option.map_some, Option.getD_some,
        Option.some.injEq] at hc
      obtain rfl := hc
      rw [hevaluates.items] at houtcomes
      rw [hsettings, houtcomes, hdue]
      exact ⟨rfl, rfl⟩
  | idle | begun | evaluated | drained | refused | aborted | broken => simp [completion?] at hc

end Session

/-- An engine that has run the completed passes one after the other: its conditions are those of the
lobby, but for the marks of the pass in flight. -/
structure Serves (e : Engine) (b : Lobby) : Prop where
  tracks : Session.Tracks e.watchlist b.session
  nodup : e.watchlist.ids.Nodup
  settings : e.settings = b.session.engine.settings
  running : e.running = true
  arriving : ∀ c ∈ b.arriving, c.flight? = none

namespace Serves

variable {e : Engine} {b b' : Lobby} {now : Instant} {answer : Option (Nat × Answer)}

/-- Among the events of one answer, those with an identifier. -/
theorem eventsOf_single (id : String) (t : Nat) (events : List Event) :
    Session.eventsOf id [(t, .pass (.ok events))] =
      (events.map Event.unnumbered).filter fun e => e.conditionId = id := by
  rw [Session.eventsOf, List.flatMap_singleton, Answer.events, List.filter_map]
  rfl

section Step

variable (h : Serves e b) (harriving : ∀ c ∈ b'.arriving, c.flight? = none)
  (hstep : Session.Step now b.session answer b'.session)
  (hanswer : ∀ a ∈ answer, a.2.breaksOff = false)

include h harriving hstep hanswer

/-- A step that completes no pass changes no condition, but for marks. -/
theorem step_of_none (hnone : completion? now answer b.session.queue.head? = none) :
    Serves e b' := by
  obtain ⟨l, htracks, hsettings, -, hexplains⟩ := h.tracks.step h.nodup hstep hanswer
  rw [Session.completed?_eq_map, hnone] at hexplains
  have hids : l.ids = e.watchlist.ids := by
    rw [← htracks.shadowed.ids_eq, hstep.ids_eq, h.tracks.shadowed.ids_eq]
  have hitems : l.items = e.watchlist.items :=
    Watchlist.items_eq_of_item?_eq h.nodup hids fun id => (congrArg Prod.fst (hexplains id)).symm
  exact ⟨htracks.of_items_eq hitems.symm, h.nodup, h.settings.trans hsettings.symm, h.running,
    harriving⟩

/-- A step that completes a pass does what the pass does if it is run at once. -/
theorem step_of_some {c : Completion}
    (hc : completion? now answer b.session.queue.head? = some c) :
    ∃ events e', e.evaluateBetween c.began c.ended c.snapshot = (.ok events, e') ∧
      Serves e' b' ∧ answer.bind delivery? = some (c.ticket, events.map Event.unnumbered) := by
  obtain ⟨l, htracks, hsettings, hnodup, hexplains⟩ := h.tracks.step h.nodup hstep hanswer
  rw [Session.completed?_eq_map, hc, ← h.settings] at hexplains
  have hids : l.ids = e.watchlist.ids := by
    rw [← htracks.shadowed.ids_eq, hstep.ids_eq, h.tracks.shadowed.ids_eq]
  obtain ⟨events, e', hrun⟩ := h.tracks.isOk_evaluateBetween hstep hc rfl h.settings h.running
  have hran := ran_evaluateBetween e c.began c.ended c.snapshot
  rw [hrun] at hran
  obtain ⟨delivered, rfl⟩ := exists_of_completion?_eq_some hc
  -- both do to each condition what a pass of its own does
  have heach : ∀ id, e'.watchlist.item? id = l.item? id ∧
      (delivered.map Event.unnumbered).filter (fun e => e.conditionId = id) =
        (events.map Event.unnumbered).filter (fun e => e.conditionId = id) := by
    intro id
    obtain ⟨hitem, hevents⟩ := hran.item? h.nodup id
    have hexplain := hexplains id
    simp only [Option.map_some, Option.toList_some, Deed.onAll, Completion.deed, Deed.on,
      List.append_nil, Prod.mk.injEq] at hexplain
    rw [← eventsOf_single id c.ticket, ← hexplain.2, ← hevents, hitem, hexplain.1,
      List.filter_map]
    exact ⟨rfl, rfl⟩
  have hitems : e'.watchlist.items = l.items :=
    Watchlist.items_eq_of_item?_eq hnodup (hran.ids_eq.trans hids.symm) fun id => (heach id).1
  have hevents : delivered.map Event.unnumbered = events.map Event.unnumbered := by
    -- the events of both come in the order of the same identifiers
    have hsub : ((events.map Event.unnumbered).map (·.conditionId)).Sublist e.watchlist.ids := by
      rw [List.map_map]
      exact hran.sublist_events h.nodup
    have hsub' : ((delivered.map Event.unnumbered).map (·.conditionId)).Sublist
        e.watchlist.ids := by
      rw [List.map_map, ← h.tracks.shadowed.ids_eq]
      exact h.tracks.sublist_events h.nodup hstep _ rfl
    exact eq_of_filter_eq h.nodup hsub' hsub fun id => (heach id).2
  refine ⟨events, e', hrun, ⟨htracks.of_items_eq hitems, hran.ids_eq ▸ h.nodup, ?_,
    hran.running_eq.trans h.running, harriving⟩, ?_⟩
  · exact (hran.settings_eq.trans h.settings).trans hsettings.symm
  · rw [Option.bind_some, delivery?, hevents]

end Step

/-- What an action preserves. -/
theorem move (h : Serves e b) (hmove : Lobby.Move now b answer b')
    (hanswer : ∀ a ∈ answer, a.2.breaksOff = false) :
    let serial := e.evaluateEach (completion? now answer b.session.queue.head?).toList
    Serves serial.2 b' ∧ serial.1.map delivery? = (answer.bind delivery?).toList.map some := by
  have harriving := hmove.arriving h.arriving
  rcases hmove.requested_or_step h.arriving with hrequested | hstep
  · -- what waits or is turned away is not completed
    have hnone : completion? now answer b.session.queue.head? = none ∧
        answer.bind delivery? = none := by
      cases answer with
      | none => exact ⟨rfl, rfl⟩
      | some a =>
        obtain ⟨t, a⟩ := a
        rcases hrequested.answer _ rfl with ha | ha <;> cases ha <;> exact ⟨rfl, rfl⟩
    rw [hnone.1, hnone.2]
    exact ⟨⟨(h.tracks.requested h.nodup hrequested now).1, h.nodup,
      h.settings.trans hrequested.settings.symm, h.running, harriving⟩, rfl⟩
  · cases hc : completion? now answer b.session.queue.head? with
    | none =>
      rw [hstep.completion?_eq_none_iff.1 hc]
      exact ⟨h.step_of_none harriving hstep hanswer hc, rfl⟩
    | some c =>
      obtain ⟨events, e', hrun, hserves, hdelivery⟩ := h.step_of_some harriving hstep hanswer hc
      rw [hdelivery, Option.toList_some, evaluateEach, hrun]
      exact ⟨hserves, rfl⟩

/-- What a course of actions preserves. -/
theorem course (h : Serves e b) (steps : List (Instant × Lobby.Action))
    (hanswers : ∀ a ∈ (b.course steps).1, a.2.breaksOff = false) :
    let serial := e.evaluateEach (b.completed steps)
    Serves serial.2 (b.course steps).2 ∧
      serial.1.map delivery? = ((b.course steps).1.filterMap delivery?).map some := by
  induction steps generalizing e b with
  | nil => exact ⟨h, rfl⟩
  | cons step steps ih =>
    obtain ⟨now, a⟩ := step
    obtain ⟨hfirst, hdelivered⟩ := h.move (Lobby.move_apply b now a) fun a ha =>
      hanswers a (List.mem_append_left _ (Option.mem_toList.2 ha))
    obtain ⟨hrest, hothers⟩ := ih hfirst fun a ha => hanswers a (List.mem_append_right _ ha)
    -- at most one answer is given by an action
    have htoList : (b.apply now a).1.toList.filterMap delivery? =
        ((b.apply now a).1.bind delivery?).toList := by
      cases (b.apply now a).1 with
      | none => rfl
      | some answer => cases hdelivery : delivery? answer <;> simp [hdelivery]
    refine ⟨?_, ?_⟩
    · rw [Lobby.completed, evaluateEach_append]
      exact hrest
    · simp only [Lobby.completed, evaluateEach_append, Lobby.course, List.map_append, hdelivered,
        hothers, List.filterMap_append, htoList]

/-- The conditions of the lobby, but for the marks of the pass in flight. -/
theorem settled_items_eq (h : Serves e b) : b.session.settled.items = e.watchlist.items :=
  h.tracks.shadowed.abortPass.items_eq

/-- Without a pass in flight there are no marks. -/
theorem items_eq (h : Serves e b) (hmarked : b.session.marked = []) :
    b.session.engine.watchlist.items = e.watchlist.items := by
  have hshadowed := h.tracks.shadowed
  rw [hmarked] at hshadowed
  exact hshadowed.items_eq

/-- An engine that is started serves a lobby without calls. -/
theorem ofEngine {e : Engine} (h : e.watchlist.Reachable) (n : Nat) :
    Serves { e with running := true } ⟨⟨e, [], n⟩, []⟩ where
  tracks := Session.tracks_mk e n
  nodup := h.nodup
  settings := rfl
  running := rfl
  arriving c hc := by cases hc

/-- As long as no answer has events, no condition changes, but for marks. -/
theorem settled_items_course (h : Serves e b) {steps : List (Instant × Lobby.Action)}
    (hanswers : ∀ a ∈ (b.course steps).1, a.2.breaksOff = false)
    (hnone : (b.course steps).1.filterMap delivery? = []) :
    (b.course steps).2.session.settled.items = b.session.settled.items := by
  obtain ⟨hserves, hdelivered⟩ := h.course steps hanswers
  rw [hnone, List.map_nil, List.map_eq_nil_iff] at hdelivered
  -- no pass is completed, so that the other engine has not run any
  rw [eq_nil_of_evaluateEach_fst_eq_nil hdelivered] at hserves
  rw [hserves.settled_items_eq, h.settled_items_eq, evaluateEach]

/-- After an answer that a pass is cancelled there are no marks. -/
theorem items_eq_of_cancelled (h : Serves e b) {ticket : Nat}
    (hmove : Lobby.Move now b (some (ticket, .pass (.error .cancelled))) b') :
    b'.session.engine.watchlist.items = b.session.settled.items := by
  rcases hmove.requested_or_step h.arriving with hrequested | hstep
  · rcases hrequested.answer _ rfl with ha | ha <;> cases ha
  · have hserves := h.step_of_none (hmove.arriving h.arriving) hstep (by rintro a ⟨⟩; rfl)
      (by simp [completion?])
    rw [hserves.items_eq (h.tracks.marked_eq_nil hstep rfl), h.settled_items_eq]

end Serves

/-- An answer that the engine is not running changes nothing. -/
theorem Lobby.Move.watchlist_eq_of_notRunning {b b' : Lobby} {now : Instant} {ticket : Nat}
    (hmove : Move now b (some (ticket, .pass (.error .notRunning))) b') :
    b'.session.engine.watchlist = b.session.engine.watchlist := by
  generalize hanswer : some (ticket, Answer.pass (.error .notRunning)) = answer at hmove
  cases hmove with
  | step hstep =>
    -- no step of the first call is answered so
    cases hstep with
    | committed =>
      unfold commitPass at hanswer
      split at hanswer <;> simp at hanswer
    | idle | drained | refused | empty | begun | aborted | evaluated | broken =>
      simp at hanswer
  | started => cases hanswer
  | turnedAway | called | halted | joined | nobody => rfl

/-! ## The order of the queue -/

namespace Session

variable {s s' : Session} {now : Instant} {answer : Option (Nat × Answer)}

/-- What is completed is the pass of the first call. -/
theorem sublist_order?_of_completion? (now : Instant) (c : Call) (a : Answer) :
    ((completion? now (some (c.ticket, a)) (some c)).toList.map Completion.order).Sublist
      c.order?.toList := by
  cases hc : completion? now (some (c.ticket, a)) (some c) with
  | none => exact List.nil_sublist _
  | some k =>
    unfold completion? at hc
    split at hc
    next hanswer hcall =>
      cases hanswer
      cases hcall
      cases hc
      exact List.Sublist.refl _
    next => cases hc

/-- The pass that a step completes is the first in the queue. -/
theorem Step.sublist_order (h : Step now s answer s') :
    ((completion? now answer s.queue.head?).toList.map Completion.order ++
      s'.queue.filterMap Call.order?).Sublist (s.queue.filterMap Call.order?) := by
  rcases h.queue_cases with ⟨rfl, hqueue⟩ | ⟨c, a, hqueue, rfl⟩
  · -- the same calls wait in the same order
    have horder : ∀ calls : List Call,
        calls.filterMap Call.order? = (calls.map Call.asCalled).filterMap Call.order? := by
      intro calls
      simp [List.filterMap_map]
    rw [horder s'.queue, hqueue, ← horder]
    exact List.Sublist.refl _
  · have hfirst : (c :: s'.queue).filterMap Call.order? =
        c.order?.toList ++ s'.queue.filterMap Call.order? := by
      cases hc : c.order? <;> simp [hc]
    rw [hqueue, List.head?_cons, hfirst]
    exact (sublist_order?_of_completion? now c a).append_right _

end Session

namespace Lobby

/-- Whatever is completed by an action was in the queue before or joins it with the action. -/
theorem sublist_order_apply (b : Lobby) (now : Instant) (a : Action) :
    ((completion? now (b.apply now a).1 b.session.queue.head?).toList.map Completion.order ++
      (b.apply now a).2.session.queue.filterMap Call.order?).Sublist
      (b.session.queue.filterMap Call.order? ++ (b.joined? a).toList) := by
  obtain ⟨⟨e, queue, n⟩, arriving⟩ := b
  cases a with
  | advance pick =>
    have hjoined : joined? ⟨⟨e, queue, n⟩, arriving⟩ (.advance pick) = none := rfl
    rw [hjoined, Option.toList_none, List.append_nil]
    exact (Session.step_advance _ now pick).sublist_order
  | join place =>
    cases hplace : arriving[place]? with
    | none => simp [apply, joined?, hplace, completion?]
    | some c => cases hc : c.order? <;> simp [apply, joined?, hplace, completion?, hc]
  | start => simp [apply, joined?, completion?, Session.start]
  | pass snapshot =>
    cases hrunning : e.running <;>
      simp [apply, receive, joined?, completion?, Session.requestPass, hrunning]
  | stop =>
    cases hrunning : e.running <;>
      simp [apply, receive, joined?, completion?, Session.requestStop, hrunning]

/-- Passes are completed in the order in which they join the queue. -/
theorem sublist_joined (b : Lobby) (steps : List (Instant × Action)) :
    ((b.completed steps).map Completion.order).Sublist
      (b.session.queue.filterMap Call.order? ++ b.joined steps) := by
  induction steps generalizing b with
  | nil => exact List.nil_sublist _
  | cons step steps ih =>
    obtain ⟨now, a⟩ := step
    rw [completed, List.map_append, joined, ← List.append_assoc]
    refine ((ih (b.apply now a).2).append_left _).trans ?_
    rw [← List.append_assoc]
    exact (b.sublist_order_apply now a).append_right _

/-! ## Every course -/

/-- The passes of an engine are run one at a time, whatever the course of calls for passes, starts
and stops, each call looking at the engine, joining the queue and acting in steps of its own, if no
pass breaks off:

- the conditions are what the completed passes make of them if they are run one after the other, but
  for the marks of a pass in flight;
- the answers with events are those of these passes, each run on what the one before it has left;
- passes are completed in the order in which they have joined the queue;
- as long as no answer has events no condition changes, but for the marks of a pass in flight; an
  answer that the engine is not running changes nothing at all, and after one that a pass is
  cancelled there are no marks;
- a pass that was called before a stop and is not answered yet can only be cancelled, even if the
  engine is started again. -/
theorem course_serial {e : Engine} (h : e.watchlist.Reachable) (n : Nat)
    {steps : List (Instant × Action)}
    (hanswers : ∀ a ∈ ((Lobby.mk ⟨e, [], n⟩ []).course steps).1, a.2.breaksOff = false) :
    let b : Lobby := ⟨⟨e, [], n⟩, []⟩
    let serial := { e with running := true }.evaluateEach (b.completed steps)
    (b.course steps).2.session.settled.items = serial.2.watchlist.items ∧
    ((b.course steps).2.session.flight? = none →
      (b.course steps).2.session.engine.watchlist.items = serial.2.watchlist.items) ∧
    serial.1.map delivery? = ((b.course steps).1.filterMap delivery?).map some ∧
    ((b.completed steps).map Completion.order).Sublist (b.joined steps) ∧
    (∀ before middle after : List (Instant × Action), steps = before ++ middle ++ after →
      let c := (b.course before).2
      (c.course middle).1.filterMap delivery? = [] →
      (c.course middle).2.session.settled.items = c.session.settled.items) ∧
    (∀ (before : List (Instant × Action)) (now : Instant) (a : Action)
      (after : List (Instant × Action)), steps = before ++ (now, a) :: after →
      let c := (b.course before).2
      ∀ ticket error, (c.apply now a).1 = some (ticket, .pass (.error error)) →
        (error = .notRunning →
          (c.apply now a).2.session.engine.watchlist = c.session.engine.watchlist) ∧
        (error = .cancelled → (c.apply now a).2.session.engine.watchlist.items =
          c.session.settled.items)) ∧
    ∀ (before : List (Instant × Action)) (now : Instant) (after : List (Instant × Action)),
      steps = before ++ (now, .stop) :: after →
      let c := (b.course before).2
      ∀ call ∈ c.calls, call.start?.isSome → ∀ a,
        (call.ticket, a) ∈ ((c.apply now .stop).2.course after).1 →
        a = .pass (.error .cancelled) := by
  intro b serial
  have hb : Serves { e with running := true } b := .ofEngine h n
  have hcourse : ∀ a ∈ (b.course steps).1, a.2.breaksOff = false := hanswers
  have hjoined : ((b.completed steps).map Completion.order).Sublist (b.joined steps) :=
    b.sublist_joined steps
  have horderly : IsOrderly b.session.engine.starts b.session.nextTicket b.calls :=
    .nil e.starts n
  -- that is all that matters of the lobby at first
  clear_value b
  obtain ⟨hserves, hdelivered⟩ := hb.course steps hcourse
  have hbefore : ∀ before after : List (Instant × Action), steps = before ++ after →
      (∀ a ∈ (b.course before).1, a.2.breaksOff = false) ∧
        ∀ a ∈ ((b.course before).2.course after).1, a.2.breaksOff = false := by
    rintro before after rfl
    rw [course_append] at hcourse
    exact ⟨fun a ha => hcourse a (List.mem_append_left _ ha), fun a ha =>
      hcourse a (List.mem_append_right _ ha)⟩
  refine ⟨hserves.settled_items_eq, fun hflight => ?_, hdelivered, hjoined, ?_, ?_, ?_⟩
  · exact hserves.items_eq (by rw [Session.marked, hflight]; rfl)
  · intro before middle after hsteps c hnone
    rw [List.append_assoc] at hsteps
    obtain ⟨hfirst, hrest⟩ := hbefore before _ hsteps
    have hc := (hb.course before hfirst).1
    rw [course_append] at hrest
    exact hc.settled_items_course (fun a ha => hrest a (List.mem_append_left _ ha)) hnone
  · intro before now a after hsteps c ticket error hanswer
    have hc := (hb.course before (hbefore before _ hsteps).1).1
    have hmove := move_apply c now a
    rw [hanswer] at hmove
    constructor
    · rintro rfl
      exact hmove.watchlist_eq_of_notRunning
    · rintro rfl
      exact hc.items_eq_of_cancelled hmove
  · intro before now after hsteps c call hcall hstart a ha
    -- a stop dooms the call, and it stays doomed
    have hc : IsOrderly c.session.engine.starts c.session.nextTicket c.calls :=
      horderly.course before
    obtain ⟨start, hstart⟩ := Option.isSome_iff_exists.1 hstart
    exact (isDoomed_stop hc hcall hstart).course after a ha

/-- Two passes that join in the other order, of which the second one still waits when the engine is
stopped and started again. -/
def crossing : List (Instant × Action) :=
  let first := Action.pass ((Quote.ofPrice "BTCUSDT" (.ofInt64 101)).atTime ⟨0, 0⟩)
  let second := Action.pass ((Quote.ofPrice "ETHUSDT" (.ofInt64 101)).atTime ⟨0, 0⟩)
  [first, second, .join 1, .join 0, .advance 0, .advance 0, .advance 0].map fun a => (⟨0, 0⟩, a)

/-- The end of the engine and its new start, a third pass, and all steps up to its end. -/
def restarted : List (Instant × Action) :=
  let third := Action.pass ((Quote.ofPrice "BTCUSDT" (.ofInt64 102)).atTime ⟨1, 0⟩)
  [.start, third, .join 0, .join 0, .advance 0, .advance 0, .advance 0, .advance 0,
    .advance 0].map fun a => (⟨1, 0⟩, a)

/-- The pass that waits is cancelled, although the engine runs again when its turn comes, and the
two others are run one after the other. -/
theorem course_serial_crossing :
    let b : Lobby := ⟨⟨Session.ofTwo.engine, [], 0⟩, []⟩
    let steps := crossing ++ (⟨1, 0⟩, .stop) :: restarted
    let serial := { Session.ofTwo.engine with running := true }.evaluateEach (b.completed steps)
    Session.ofTwo.engine.watchlist.Reachable ∧
      (∀ a ∈ (b.course steps).1, a.2.breaksOff = false) ∧
      (b.completed steps).map (·.ticket) = [1, 3] ∧
      (b.course steps).2.session.settled.items = serial.2.watchlist.items ∧
      serial.1.map delivery? = ((b.course steps).1.filterMap delivery?).map some ∧
      (b.course steps).1.map Prod.fst = [1, 0, 2, 3] ∧
      ∀ a, (0, a) ∈ (((b.course crossing).2.apply ⟨1, 0⟩ .stop).2.course restarted).1 →
        a = .pass (.error .cancelled) := by
  have hreach : Session.ofTwo.engine.watchlist.Reachable :=
    .edit (.register (.priceAbove "c2" "ETHUSDT"))
      (.edit (.register (.priceAbove "c1" "BTCUSDT")) .empty)
  dsimp only
  generalize hb : Lobby.mk ⟨Session.ofTwo.engine, [], 0⟩ [] = b
  generalize hsteps : crossing ++ (⟨1, 0⟩, .stop) :: restarted = steps
  have hall : (b.course steps).1.all (fun a => !a.2.breaksOff) = true := by
    subst hb hsteps
    decide +kernel
  have hanswers : ∀ a ∈ (b.course steps).1, a.2.breaksOff = false := fun a ha => by
    simpa using List.all_eq_true.1 hall a ha
  subst hb
  obtain ⟨hitems, -, hdelivered, -, -, -, hdoomed⟩ := course_serial hreach 0 hanswers
  refine ⟨hreach, hanswers, ?_, hitems, hdelivered, ?_, ?_⟩
  · subst hsteps
    decide +kernel
  · subst hsteps
    decide +kernel
  · -- the first pass called is the one that waits
    have hcall : Call.pass 0 0 ((Quote.ofPrice "BTCUSDT" (.ofInt64 101)).atTime ⟨0, 0⟩) none ∈
        ((Lobby.mk ⟨Session.ofTwo.engine, [], 0⟩ []).course crossing).2.calls := .head _
    exact hdoomed crossing ⟨1, 0⟩ restarted hsteps.symm _ hcall rfl

end Lobby

end MarketAlerts.Engine
