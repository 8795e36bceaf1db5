import MarketAlerts.Proofs.Engine.Serial

/-!
# The two strategies agree

A pass from condition to condition and a pass over all at once do the same to their conditions, in
whatever order the second one evaluates them. What remains of the difference is the name of the
strategy, which every event carries, and what becomes of an evaluation that overflows.

- `PassItem.pass_congr`: what a pass makes of a condition depends neither on times nor on the
  strategy, but for the times that it notes down;
- `Alike.ran`, `Alike.evaluateEach`: so it is with passes over two watchlists that are alike;
- `strategies_agree`: what is handed over to be committed, and what courses of passes leave behind;
- `strategies_name_themselves`: events are not the same, since they carry the name.
-/

namespace MarketAlerts

/-! ## What is left without times -/

/-- The record without times: it is left whether they are set. -/
def Condition.Record.untimed (r : Condition.Record) : Condition.Record :=
  { r with
    lastTriggered := r.lastTriggered.map fun _ => .epoch
    nextEvaluation := r.nextEvaluation.map fun _ => .epoch }

/-- The condition and its memory without times. -/
def PassItem.untimed (x : PassItem) : PassItem :=
  { x with condition := { x.condition with record := x.condition.record.untimed } }

/-- The event without times. -/
def Event.untimed (e : Event) : Event :=
  { e with timestamp := .epoch, context := { e.context with timestamp := .epoch } }

/-- The event without identifiers that are drawn at random, without times and without the name of
the strategy. -/
def Event.gist (e : Event) : Event :=
  { e with id := .nil, timestamp := .epoch, context := ⟨.nil, .sequential, .epoch⟩ }

/-- The gist of events does not depend on their numbers. -/
theorem Event.map_gist_unnumbered (events : List Event) :
    (events.map Event.unnumbered).map Event.gist = events.map Event.gist := by
  rw [List.map_map]
  rfl

/-- Whether a condition is due again at all does not depend on the time. -/
theorem Engine.map_dueAt? {interval : Option Nat} {now now' : Instant}
    (h : (dueAt? interval now).isSome) (h' : (dueAt? interval now').isSome) :
    (dueAt? interval now).join.map (fun _ => Instant.epoch) =
      (dueAt? interval now').join.map fun _ => Instant.epoch := by
  unfold dueAt? at h h' ⊢
  cases interval with
  | none => rfl
  | some seconds =>
    dsimp only at h h' ⊢
    split
    next => rfl
    next hle =>
      -- both dates exist
      rw [if_neg hle, Option.isSome_map, Option.isSome_iff_exists] at h h'
      obtain ⟨t, ht⟩ := h
      obtain ⟨t', ht'⟩ := h'
      rw [ht, ht']
      rfl

namespace PassItem

variable {settings settings' : Engine.Settings} (began began' now now' : Instant) {s : Snapshot}

/-- A pass treats a condition as it treats the one without times. -/
theorem pass_untimed (hinterval : settings'.interval = settings.interval)
    (hlimit : settings'.historyLimit = settings.historyLimit) (x : PassItem)
    (hdue : x.condition.appliesTo s.symbol = true →
      (Engine.dueAt? settings.interval now).isSome ∧
        (Engine.dueAt? settings.interval now').isSome) :
    (x.pass settings began now s).1.untimed = (x.untimed.pass settings' began' now' s).1.untimed ∧
      (x.pass settings began now s).2.map Event.gist =
        (x.untimed.pass settings' began' now' s).2.map Event.gist := by
  have happ_untimed : x.untimed.condition.appliesTo s.symbol = x.condition.appliesTo s.symbol := rfl
  unfold pass
  by_cases happ : x.condition.appliesTo s.symbol = true
  · obtain ⟨hnow, hnow'⟩ := hdue happ
    have hnext := Engine.map_dueAt? hnow hnow'
    -- an evaluation does not look at the record
    have heval : evaluate settings'.historyLimit x.untimed.condition x.untimed.memory s =
        evaluate settings.historyLimit x.condition x.memory s := by
      rw [hlimit]
      rfl
    rw [if_pos happ, if_pos (happ_untimed.trans happ), heval, hinterval]
    cases evaluate settings.historyLimit x.condition x.memory s with
    | error e => simp [untimed, Condition.Record.untimed, hnext, Function.comp_def]
    | ok result =>
      obtain ⟨reading, memory⟩ := result
      cases hsatisfied : reading.satisfied <;>
        simp [untimed, Condition.Record.untimed, hnext, hsatisfied, Event.gist,
          Event.ofCondition, Function.comp_def]
  · rw [if_neg happ, if_neg (by rwa [happ_untimed])]
    simp [untimed, Condition.Record.untimed, Function.comp_def]

/-- What a pass makes of a condition depends neither on times nor on the strategy. -/
theorem pass_congr (hinterval : settings'.interval = settings.interval)
    (hlimit : settings'.historyLimit = settings.historyLimit) {x y : PassItem}
    (hxy : x.untimed = y.untimed)
    (hdue : x.condition.appliesTo s.symbol = true → (Engine.dueAt? settings.interval now).isSome)
    (hdue' : y.condition.appliesTo s.symbol = true →
      (Engine.dueAt? settings'.interval now').isSome) :
    (x.pass settings began now s).1.untimed = (y.pass settings' began' now' s).1.untimed ∧
      (x.pass settings began now s).2.map Event.gist =
        (y.pass settings' began' now' s).2.map Event.gist := by
  have happ : x.untimed.condition.appliesTo s.symbol = y.untimed.condition.appliesTo s.symbol := by
    rw [hxy]
  rw [hinterval] at hdue'
  obtain ⟨hxitem, hxevent⟩ := pass_untimed began began' now now' hinterval hlimit x
    fun hx => ⟨hdue hx, hdue' (happ ▸ hx)⟩
  have hsettings : settings'.interval = settings'.interval := rfl
  obtain ⟨hyitem, hyevent⟩ := pass_untimed began' began' now' now' hsettings rfl y fun hy => by
    rw [hinterval]
    exact ⟨hdue' hy, hdue' hy⟩
  rw [hxitem, hxevent, hxy, ← hyitem, ← hyevent]
  exact ⟨rfl, rfl⟩

end PassItem

namespace Engine

/-! ## Engines that are alike -/

/-- Two engines with the same conditions but for times, and with the same settings but for the
strategy. -/
structure Alike (e e' : Engine) : Prop where
  nodup : e.watchlist.ids.Nodup
  items : e'.watchlist.items.map PassItem.untimed = e.watchlist.items.map PassItem.untimed
  interval : e'.settings.interval = e.settings.interval
  historyLimit : e'.settings.historyLimit = e.settings.historyLimit

namespace Alike

variable {e e' k k' : Engine} {began began' ended ended' : Instant} {s : Snapshot}

theorem ids_eq (h : Alike e e') : e'.watchlist.ids = e.watchlist.ids := by
  have hids : ∀ l : Watchlist,
      l.ids = (l.items.map PassItem.untimed).map (·.condition.id) := by
    intro l
    rw [l.ids_eq_map_items, List.map_map]
    rfl
  rw [hids, h.items, ← hids]

/-- What two passes make of the condition with an identifier. -/
theorem pass_item? (h : Alike e e') {events events' : List Event}
    (hran : Ran began ended s e (.ok events, k)) (hran' : Ran began' ended' s e' (.ok events', k'))
    (id : String) :
    (k'.watchlist.item? id).map PassItem.untimed = (k.watchlist.item? id).map PassItem.untimed ∧
      (events'.map Event.gist).filter (fun event => event.conditionId = id) =
        (events.map Event.gist).filter fun event => event.conditionId = id := by
  have hnodup' : e'.watchlist.ids.Nodup := h.ids_eq ▸ h.nodup
  obtain ⟨hitem, hevents⟩ := hran.item? h.nodup id
  obtain ⟨hitem', hevents'⟩ := hran'.item? hnodup' id
  have hsame : (e'.watchlist.item? id).map PassItem.untimed =
      (e.watchlist.item? id).map PassItem.untimed :=
    Watchlist.item?_map_eq_of_items_map_eq (f := PassItem.untimed) (fun _ => rfl) h.items id
  -- events are compared without their numbers, in which two engines may differ
  have hgist : ∀ events : List Event,
      (events.map Event.gist).filter (fun event => event.conditionId = id) =
        ((events.filter fun event => event.conditionId = id).map Event.unnumbered).map
          Event.gist := by
    intro events
    rw [Event.map_gist_unnumbered, List.filter_map]
    rfl
  rw [hgist, hgist, hevents, hevents', hitem, hitem']
  cases hx : e.watchlist.item? id with
  | none =>
    rw [hx, Option.map_none, Option.map_eq_none_iff] at hsame
    rw [hsame]
    exact ⟨rfl, rfl⟩
  | some x =>
    rw [hx, Option.map_some, Option.map_eq_some_iff] at hsame
    obtain ⟨y, hy, hyx⟩ := hsame
    obtain ⟨hpass, hevent⟩ := PassItem.pass_congr began began' ended ended' h.interval
      h.historyLimit hyx.symm (fun happ => hran.isSome_dueAt? h.nodup hx happ)
      (fun happ => hran'.isSome_dueAt? hnodup' hy happ)
    rw [hy]
    simp only [Option.map_some, Option.bind_some, ← Option.toList_map, hpass, hevent]
    exact ⟨trivial, trivial⟩

/-- Two passes over the same snapshot leave the engines alike and emit the same events. -/
theorem ran (h : Alike e e') {events events' : List Event}
    (hran : Ran began ended s e (.ok events, k))
    (hran' : Ran began' ended' s e' (.ok events', k')) :
    Alike k k' ∧ events'.map Event.gist = events.map Event.gist := by
  have hids : k.watchlist.ids = e.watchlist.ids := hran.ids_eq
  have hids' : k'.watchlist.ids = e.watchlist.ids := hran'.ids_eq.trans h.ids_eq
  have hnodup : k.watchlist.ids.Nodup := hids ▸ h.nodup
  refine ⟨⟨hnodup, ?_, ?_, ?_⟩, ?_⟩
  · exact Watchlist.items_map_eq_of_item?_map_eq PassItem.untimed hnodup (hids'.trans hids.symm)
      fun id => (h.pass_item? hran hran' id).1
  · rw [hran.settings_eq, hran'.settings_eq, h.interval]
  · rw [hran.settings_eq, hran'.settings_eq, h.historyLimit]
  · -- the events of both come in the order of the same identifiers
    have hsub : ((events.map Event.gist).map (·.conditionId)).Sublist e.watchlist.ids := by
      rw [List.map_map]
      exact hran.sublist_events h.nodup
    have hsub' : ((events'.map Event.gist).map (·.conditionId)).Sublist e.watchlist.ids := by
      rw [List.map_map, ← h.ids_eq]
      exact hran'.sublist_events (h.ids_eq ▸ h.nodup)
    exact eq_of_filter_eq h.nodup hsub' hsub fun id => (h.pass_item? hran hran' id).2

/-- A pass that delivers something ended with events. -/
theorem exists_of_isSome_delivery? {ticket : Nat} {result : Except Error (List Event)}
    (h : (delivery? (ticket, .pass result)).isSome) : ∃ events, result = .ok events := by
  cases result with
  | error error => cases h
  | ok events => exact ⟨events, rfl⟩

/-- Where answers deliver events one by one, each delivers some. -/
theorem isSome_delivery?_of_map_eq {answers : List (Nat × Answer)} {ds : List (Nat × List Event)}
    (h : answers.map delivery? = ds.map some) : ∀ a ∈ answers, (delivery? a).isSome := by
  intro a ha
  have hmem := List.mem_map_of_mem (f := delivery?) ha
  rw [h, List.mem_map] at hmem
  obtain ⟨d, -, hd⟩ := hmem
  rw [← hd, Option.isSome_some]

theorem filterMap_delivery?_of_map_eq {answers : List (Nat × Answer)}
    {ds : List (Nat × List Event)} (h : answers.map delivery? = ds.map some) :
    answers.filterMap delivery? = ds := by
  have hfilter : (answers.map delivery?).filterMap id = answers.filterMap delivery? := by
    rw [List.filterMap_map, Function.id_comp]
  rw [← hfilter, h, List.filterMap_map, Function.id_comp, List.filterMap_some]

/-- So it is with passes in a row, if they all give their events. -/
theorem evaluateEach (h : Alike e e') {cs cs' : List Completion}
    (hsnapshots : cs'.map Completion.snapshot = cs.map Completion.snapshot)
    (hok : ∀ a ∈ (e.evaluateEach cs).1, (delivery? a).isSome)
    (hok' : ∀ a ∈ (e'.evaluateEach cs').1, (delivery? a).isSome) :
    Alike (e.evaluateEach cs).2 (e'.evaluateEach cs').2 ∧
      ((e'.evaluateEach cs').1.filterMap delivery?).map (fun d => d.2.map Event.gist) =
        ((e.evaluateEach cs).1.filterMap delivery?).map fun d => d.2.map Event.gist := by
  induction cs generalizing e e' cs' with
  | nil =>
    rw [List.map_nil, List.map_eq_nil_iff] at hsnapshots
    subst hsnapshots
    exact ⟨h, rfl⟩
  | cons c cs ih =>
    obtain ⟨c', cs', rfl, hc, hcs⟩ := List.map_eq_cons_iff.1 hsnapshots
    have hran := ran_evaluateBetween e c.began c.ended c.snapshot
    have hran' := ran_evaluateBetween e' c'.began c'.ended c'.snapshot
    rw [hc] at hran'
    simp only [Engine.evaluateEach, hc] at hok hok' ⊢
    generalize e.evaluateBetween c.began c.ended c.snapshot = r at hran hok ⊢
    generalize e'.evaluateBetween c'.began c'.ended c.snapshot = r' at hran' hok' ⊢
    obtain ⟨result, k⟩ := r
    obtain ⟨result', k'⟩ := r'
    -- both passes in front give their events
    obtain ⟨events, rfl⟩ := exists_of_isSome_delivery? (hok _ (List.mem_cons_self ..))
    obtain ⟨events', rfl⟩ := exists_of_isSome_delivery? (hok' _ (List.mem_cons_self ..))
    obtain ⟨halike, hevents⟩ := h.ran hran hran'
    obtain ⟨hrest, hothers⟩ := ih halike hcs (fun a ha => hok a (List.mem_cons_of_mem _ ha))
      fun a ha => hok' a (List.mem_cons_of_mem _ ha)
    refine ⟨hrest, ?_⟩
    simp only [List.filterMap_cons, delivery?, List.map_cons, Event.map_gist_unnumbered, hevents,
      hothers]

/-- Two courses that complete passes over the same snapshots leave the same conditions and deliver
the same events. -/
theorem course {b b' : Lobby} (h : Alike e e') (hserves : Serves e b) (hserves' : Serves e' b')
    {steps steps' : List (Instant × Lobby.Action)}
    (hanswers : ∀ a ∈ (b.course steps).1, a.2.breaksOff = false)
    (hanswers' : ∀ a ∈ (b'.course steps').1, a.2.breaksOff = false)
    (hsnapshots : (b'.completed steps').map Completion.snapshot =
      (b.completed steps).map Completion.snapshot) :
    (b'.course steps').2.session.settled.items.map PassItem.untimed =
        (b.course steps).2.session.settled.items.map PassItem.untimed ∧
      ((b'.course steps').1.filterMap delivery?).map (fun d => d.2.map Event.gist) =
        ((b.course steps).1.filterMap delivery?).map fun d => d.2.map Event.gist := by
  obtain ⟨hend, hdelivered⟩ := hserves.course steps hanswers
  obtain ⟨hend', hdelivered'⟩ := hserves'.course steps' hanswers'
  -- every pass that is run at once gives its events
  obtain ⟨halike, hgists⟩ := h.evaluateEach hsnapshots (isSome_delivery?_of_map_eq hdelivered)
    (isSome_delivery?_of_map_eq hdelivered')
  rw [filterMap_delivery?_of_map_eq hdelivered, filterMap_delivery?_of_map_eq hdelivered']
    at hgists
  rw [hend.settled_items_eq, hend'.settled_items_eq]
  exact ⟨halike.items, hgists⟩

end Alike

/-! ## The strategies -/

open Session in
/-- The two strategies agree.

What a pass hands over to be committed are the outcomes of its conditions in their order, whichever
conditions are evaluated first. This holds of every pass over all at once, where a condition whose
evaluation overflows has failed under its own identifier, and of every pass from condition to
condition in which no evaluation overflows.

Two courses of calls, in which the engines have the same conditions and the same settings but for
the strategy, complete passes over the same snapshots and break none off, leave the same conditions
and deliver the same events, but for the identifiers that are drawn at random, the times, and the
name of the strategy, which every event carries. -/
theorem strategies_agree :
    (∀ (e : Engine) (context : PassContext) (items : List PassItem) (snapshot : Snapshot)
      (ticket start n : Nat) (rest : List Call) (picks : List (Instant × Nat)),
      e.isCancelled start = false → picks.length = items.length →
      (e.settings.strategy = .parallel ∨
        ∀ x ∈ items, (x.outcome? e.settings.historyLimit snapshot).isSome) →
      let s : Session :=
        ⟨e, .pass ticket start snapshot (some (.ofItems context items)) :: rest, n⟩
      let os := items.map fun x => (x.outcome? e.settings.historyLimit snapshot).getD
        (.failed x.condition.id "evaluation task panicked")
      (s.course (turns picks)).1 = [] ∧ ∀ now pick, (s.course (turns picks)).2.advance now pick =
        (some (ticket, .pass (e.commitPass context now os).1),
          ⟨(e.commitPass context now os).2, rest, n⟩)) ∧
    ∀ (e e' : Engine) (n n' : Nat) (steps steps' : List (Instant × Lobby.Action)),
      e.watchlist.Reachable → e'.watchlist.Reachable →
      e'.watchlist.items = e.watchlist.items →
      e'.settings = { e.settings with strategy := e'.settings.strategy } →
      let b : Lobby := ⟨⟨e, [], n⟩, []⟩
      let b' : Lobby := ⟨⟨e', [], n'⟩, []⟩
      (∀ a ∈ (b.course steps).1, a.2.breaksOff = false) →
      (∀ a ∈ (b'.course steps').1, a.2.breaksOff = false) →
      (b'.completed steps').map Completion.snapshot =
        (b.completed steps).map Completion.snapshot →
      (b'.course steps').2.session.settled.items.map PassItem.untimed =
          (b.course steps).2.session.settled.items.map PassItem.untimed ∧
        ((b'.course steps').1.filterMap delivery?).map (fun d => d.2.map Event.gist) =
          ((b.course steps).1.filterMap delivery?).map fun d => d.2.map Event.gist := by
  constructor
  · intro e context items snapshot ticket start n rest picks hcancelled hlength hstrategy
    refine advance_turns n ticket rest hcancelled context (fun hsequential => ?_) hlength
    rcases hstrategy with hparallel | hsome
    · rw [hparallel] at hsequential
      cases hsequential
    · exact hsome
  · intro e e' n n' steps steps' h h' hitems hsettings b b' hanswers hanswers' hsnapshots
    have halike : Alike { e with running := true } { e' with running := true } :=
      ⟨h.nodup, congrArg _ hitems, by rw [hsettings], by rw [hsettings]⟩
    exact halike.course (.ofEngine h n) (.ofEngine h' n') hanswers hanswers' hsnapshots

/-- An engine with two conditions of one symbol. -/
def ofPair (strategy : Strategy) : Engine where
  settings := { strategy }
  watchlist := (({} : Watchlist).edit (.register (.priceAbove "c1" "BTCUSDT"))).edit
    (.register (.priceAbove "c2" "BTCUSDT"))
  running := true

/-- Events are not the same although no evaluation overflows: they carry the name of the strategy.
-/
theorem strategies_name_themselves :
    let s := (Quote.ofPrice "BTCUSDT" (.ofInt64 101)).atTime ⟨0, 0⟩
    ∃ events events' e e', (ofPair .sequential).evaluateAll ⟨0, 0⟩ s = (.ok events, e) ∧
      (ofPair .parallel).evaluateAll ⟨0, 0⟩ s = (.ok events', e') ∧
      events.map (fun event => event.unnumbered.untimed) ≠
        events'.map fun event => event.unnumbered.untimed := by
  refine ⟨_, _, _, _, rfl, rfl, ?_⟩
  decide +kernel

/-- A pass over the snapshot whose conditions are picked in this order. -/
def passPicking (now : Instant) (picks : List Nat) : List (Instant × Lobby.Action) :=
  let pass := Lobby.Action.pass ((Quote.ofPrice "BTCUSDT" (.ofInt64 101)).atTime ⟨0, 0⟩)
  ([pass, .join 0] ++ picks.map Lobby.Action.advance).map fun a => (now, a)

open Session in
/-- A pass over all at once that takes up its second condition first; and a pass in the order of
registration, and one in the other order a second later. -/
theorem strategies_agree_ofPair :
    let e := ofPair .sequential
    let e' := ofPair .parallel
    let snapshot := (Quote.ofPrice "BTCUSDT" (.ofInt64 101)).atTime ⟨0, 0⟩
    let items := (e'.watchlist.beginPass "BTCUSDT").1
    let picks : List (Instant × Nat) := [(⟨0, 0⟩, 1), (⟨0, 0⟩, 0)]
    let s : Session := ⟨e', [.pass 0 0 snapshot (some (.ofItems default items))], 1⟩
    let b : Lobby := ⟨⟨e, [], 0⟩, []⟩
    let b' : Lobby := ⟨⟨e', [], 0⟩, []⟩
    let steps := passPicking ⟨0, 0⟩ [0, 0, 1, 0]
    let steps' := passPicking ⟨1, 0⟩ [0, 1, 0, 0]
    e'.isCancelled 0 = false ∧ picks.length = items.length ∧ e'.settings.strategy = .parallel ∧
      (s.course (turns picks)).1 = [] ∧
      e.watchlist.Reachable ∧ e'.watchlist.Reachable ∧
      e'.settings = { e.settings with strategy := e'.settings.strategy } ∧
      (∀ a ∈ (b.course steps).1, a.2.breaksOff = false) ∧
      (∀ a ∈ (b'.course steps').1, a.2.breaksOff = false) ∧
      (b'.completed steps').map Completion.snapshot =
        (b.completed steps).map Completion.snapshot ∧
      (b'.course steps').2.session.settled.items.map PassItem.untimed =
        (b.course steps).2.session.settled.items.map PassItem.untimed := by
  have hreach : ∀ strategy, (ofPair strategy).watchlist.Reachable := fun _ =>
    .edit (.register (.priceAbove "c2" "BTCUSDT"))
      (.edit (.register (.priceAbove "c1" "BTCUSDT")) .empty)
  have hwhole : ∀ {answers : List (Nat × Answer)},
      answers.all (fun a => !a.2.breaksOff) = true → ∀ a ∈ answers, a.2.breaksOff = false :=
    fun h a ha => by simpa using List.all_eq_true.1 h a ha
  intro e e' snapshot items picks s b b' steps steps'
  have hanswers : ∀ a ∈ (b.course steps).1, a.2.breaksOff = false := hwhole (by decide +kernel)
  have hanswers' : ∀ a ∈ (b'.course steps').1, a.2.breaksOff = false := hwhole (by decide +kernel)
  have hsnapshots : (b'.completed steps').map Completion.snapshot =
      (b.completed steps).map Completion.snapshot := by decide +kernel
  obtain ⟨hturns, hcourses⟩ := strategies_agree
  have hturn := hturns e' default items snapshot 0 0 1 [] picks rfl rfl (.inl rfl)
  have hcourse := hcourses e e' 0 0 steps steps' (hreach _) (hreach _) rfl rfl hanswers hanswers'
    hsnapshots
  exact ⟨rfl, rfl, rfl, hturn.1, hreach _, hreach _, rfl, hanswers, hanswers', hsnapshots,
    hcourse.1⟩

end Engine

end MarketAlerts
