import MarketAlerts.Proofs.Engine.Outcomes

/-!
# Passes that are run at once

`Engine.evaluateBetween` is a pass from its beginning to its end with nothing in between, except
that time may go by; `Engine.evaluateAll` is the case in which none does.

- `ran_evaluateBetween`: everything that can come of such a pass (`Engine.Ran`);
- `Ran.eq_overflow_iff`, `isOk_evaluateBetween`: when it breaks off, and when it gives its events;
- `Ran.item?`: then it has done to each condition what a pass of its own does, and the events come
  in the order of registration (`Ran.sublist_events`). -/

namespace MarketAlerts.Engine

/-- Runs a pass from its beginning to its end, each at its time. -/
def evaluateBetween (e : Engine) (began ended : Instant) (s : Snapshot) :
    Except Error (List Event) × Engine :=
  if !e.running then (.error .notRunning, e)
  else
    let (context, items, e) := e.beginPass began s.symbol
    if items.isEmpty then (.ok [], e)
    else
      match outcomes? e.settings s items with
      | none => (.error .overflow, e)
      | some outcomes => e.commitPass context ended outcomes

/-- A pass that takes no time begins and ends at once. -/
theorem evaluateAll_eq (e : Engine) (now : Instant) (s : Snapshot) :
    e.evaluateAll now s = e.evaluateBetween now now s := rfl

/-- What can come of a pass that is run at once. -/
inductive Ran (began ended : Instant) (s : Snapshot) (e : Engine) :
    Except Error (List Event) × Engine → Prop
  /-- The engine is not running. -/
  | notRunning (hrunning : e.running = false) : Ran began ended s e (.error .notRunning, e)
  /-- The pass finds no conditions. -/
  | empty (hrunning : e.running = true) (hitems : (e.watchlist.beginPass s.symbol).1 = []) :
    Ran began ended s e (.ok [], (e.beginPass began s.symbol).2.2)
  /-- The evaluation of a condition overflows, and the pass breaks off. -/
  | broken (hrunning : e.running = true) (hitems : (e.watchlist.beginPass s.symbol).1 ≠ [])
    (houtcomes : outcomes? e.settings s (e.watchlist.beginPass s.symbol).1 = none) :
    Ran began ended s e (.error .overflow, (e.beginPass began s.symbol).2.2)
  /-- There is no date at which the conditions are due again. -/
  | undated {os : List Outcome} (hrunning : e.running = true)
    (hitems : (e.watchlist.beginPass s.symbol).1 ≠ [])
    (houtcomes : outcomes? e.settings s (e.watchlist.beginPass s.symbol).1 = some os)
    (hdue : dueAt? e.settings.interval ended = none) :
    Ran began ended s e (.error .overflow, (e.beginPass began s.symbol).2.2)
  /-- The outcomes are committed. -/
  | committed {os : List Outcome} {next : Option Instant} (hrunning : e.running = true)
    (hitems : (e.watchlist.beginPass s.symbol).1 ≠ [])
    (houtcomes : outcomes? e.settings s (e.watchlist.beginPass s.symbol).1 = some os)
    (hdue : dueAt? e.settings.interval ended = some next)
    {readings : List (Condition × Reading)} {watchlist : Watchlist}
    (hcommit : (e.watchlist.beginPass s.symbol).2.commitPass ended next os =
      (readings, watchlist))
    {events : List Event} {supply : Uuid.Supply}
    (hemit : emit ⟨e.supply.head, e.settings.strategy, began⟩ ended (e.supply.drop 1) readings =
      (events, supply)) :
    Ran began ended s e (.ok events, { e with watchlist, supply })

variable {e e' : Engine} {began ended now : Instant} {s : Snapshot}
  {result : Except Error (List Event)}

/-- Whatever comes of a pass that is run at once is one of these. -/
theorem ran_evaluateBetween (e : Engine) (began ended : Instant) (s : Snapshot) :
    Ran began ended s e (e.evaluateBetween began ended s) := by
  unfold evaluateBetween
  cases hrunning : e.running with
  | false => exact .notRunning hrunning
  | true =>
    rw [if_neg (by decide)]
    dsimp only
    split
    next hempty => exact .empty hrunning (List.isEmpty_iff.1 hempty)
    next hempty =>
      have hitems : (e.watchlist.beginPass s.symbol).1 ≠ [] := fun h =>
        hempty (List.isEmpty_iff.2 h)
      split
      next houtcomes => exact .broken hrunning hitems houtcomes
      next os houtcomes =>
        unfold commitPass
        split
        next hdue => exact .undated hrunning hitems houtcomes hdue
        next next hdue => exact .committed hrunning hitems houtcomes hdue rfl rfl

theorem Ran.settings_eq (h : Ran began ended s e (result, e')) : e'.settings = e.settings := by
  cases h <;> rfl

theorem Ran.running_eq (h : Ran began ended s e (result, e')) : e'.running = e.running := by
  cases h <;> rfl

theorem Ran.ids_eq (h : Ran began ended s e (result, e')) :
    e'.watchlist.ids = e.watchlist.ids := by
  cases h with
  | notRunning => rfl
  | empty | broken | undated => exact Watchlist.ids_beginPass
  | @committed os next _ _ _ _ _ _ hcommit =>
    have hids : (((e.watchlist.beginPass s.symbol).2.commitPass ended next os).2).ids = _ :=
      Watchlist.ids_commitPass _ os
    rw [hcommit] at hids
    exact hids.trans Watchlist.ids_beginPass

/-- A pass of a running engine breaks off if an evaluation breaks it off or there is no date at
which its conditions are due again. -/
theorem Ran.eq_overflow_iff (h : Ran began ended s e (result, e')) (hrunning : e.running = true) :
    result = .error .overflow ↔ (e.watchlist.beginPass s.symbol).1 ≠ [] ∧
      (dueAt? e.settings.interval ended = none ∨
        outcomes? e.settings s (e.watchlist.beginPass s.symbol).1 = none) := by
  cases h with
  | notRunning hnot => simp [hrunning] at hnot
  | empty _ hitems => simp [hitems]
  | broken _ hitems houtcomes => simp [hitems, houtcomes]
  | undated _ hitems _ hdue => simp [hitems, hdue]
  | committed _ _ houtcomes hdue => simp [houtcomes, hdue]

/-- A pass that breaks off leaves its marks, and nothing else. -/
theorem Ran.watchlist_eq_of_overflow (h : Ran began ended s e (.error .overflow, e')) :
    e'.watchlist = (e.watchlist.beginPass s.symbol).2 := by
  cases h <;> rfl

/-- A pass of a running engine that does not break off gives its events. -/
theorem Ran.exists_events (h : Ran began ended s e (result, e')) (hrunning : e.running = true)
    (hresult : result ≠ .error .overflow) : ∃ events, result = .ok events := by
  cases h with
  | notRunning hnot => simp [hrunning] at hnot
  | empty | committed => exact ⟨_, rfl⟩
  | broken | undated => exact absurd rfl hresult

/-- A pass of a running engine gives its events if none of its evaluations breaks it off and there
is a date at which its conditions are due again. -/
theorem isOk_evaluateBetween (hrunning : e.running = true)
    (h : (e.watchlist.beginPass s.symbol).1 ≠ [] →
      (outcomes? e.settings s (e.watchlist.beginPass s.symbol).1).isSome ∧
        (dueAt? e.settings.interval ended).isSome) :
    ∃ events e', e.evaluateBetween began ended s = (.ok events, e') := by
  have hran := ran_evaluateBetween e began ended s
  generalize e.evaluateBetween began ended s = r at hran ⊢
  obtain ⟨result, e'⟩ := r
  have hresult : result ≠ .error .overflow := by
    rw [Ne, hran.eq_overflow_iff hrunning]
    rintro ⟨hitems, hnone | hnone⟩
    · simpa [hnone] using (h hitems).2
    · simpa [hnone] using (h hitems).1
  obtain ⟨events, rfl⟩ := hran.exists_events hrunning hresult
  exact ⟨events, e', rfl⟩

/-- A pass that gives its events has done to each condition what a pass of its own does. -/
theorem Ran.item? {events : List Event} (hran : Ran began ended s e (.ok events, e'))
    (h : e.watchlist.ids.Nodup) (id : String) :
    e'.watchlist.item? id =
        (e.watchlist.item? id).map (fun x => (x.pass e.settings began ended s).1) ∧
      (events.filter fun event => event.conditionId = id).map Event.unnumbered =
        ((e.watchlist.item? id).bind fun x => (x.pass e.settings began ended s).2).toList := by
  have hmarked := (Watchlist.Shadowed.refl e.watchlist).beginPass h s.symbol
  cases hran with
  | empty _ hitems =>
    -- nothing is marked, and no condition is one that the pass applies to
    rw [hitems] at hmarked
    have happ := Watchlist.any_appliesTo_of_beginPass_eq_nil h hitems id
    change (e.watchlist.beginPass s.symbol).2.item? id = _ ∧ _
    rw [Watchlist.item?_eq_of_items_eq hmarked.items_eq]
    cases hx : e.watchlist.item? id with
    | none => exact ⟨rfl, rfl⟩
    | some x =>
      rw [hx, Option.any_some] at happ
      rw [Option.map_some, Option.bind_some,
        PassItem.pass_of_not_appliesTo (by simpa using happ)]
      exact ⟨rfl, rfl⟩
  | @committed _ next _ _ houtcomes hdue _ _ hcommit _ _ hemit =>
    -- none of the evaluations has broken the pass off, so that these are the outcomes of all
    obtain rfl := eq_map_outcome_of_outcomes? houtcomes
    have hitem := Watchlist.item?_commitPass h hmarked hdue began id
    have hstrategy : (PassContext.mk e.supply.head e.settings.strategy began).strategy =
        e.settings.strategy := rfl
    have hevents := Watchlist.events_commitPass h hmarked hstrategy ended next (e.supply.drop 1) id
    rw [Watchlist.outcomes, hcommit] at hitem hevents
    rw [hemit] at hevents
    exact ⟨hitem, hevents⟩

/-- The events come in the order of registration. -/
theorem Ran.sublist_events {events : List Event} (hran : Ran began ended s e (.ok events, e'))
    (h : e.watchlist.ids.Nodup) : (events.map (·.conditionId)).Sublist e.watchlist.ids := by
  cases hran with
  | empty => exact List.nil_sublist _
  | @committed _ next _ _ houtcomes hdue _ _ hcommit _ _ hemit =>
    obtain rfl := eq_map_outcome_of_outcomes? houtcomes
    have hids : (e.watchlist.beginPass s.symbol).2.ids = e.watchlist.ids := Watchlist.ids_beginPass
    have hsublist := Watchlist.sublist_emit_commitPass h hids
      ⟨e.supply.head, e.settings.strategy, began⟩ ended next (e.supply.drop 1)
      e.settings.historyLimit s
    rw [Watchlist.outcomes, hcommit, hemit] at hsublist
    rwa [hids] at hsublist

/-- If a pass that gives its events applies to a condition, there is a date at which it is due
again. -/
theorem Ran.isSome_dueAt? {events : List Event} (hran : Ran began ended s e (.ok events, e'))
    (h : e.watchlist.ids.Nodup) {id : String} {x : PassItem}
    (hx : e.watchlist.item? id = some x) (happ : x.condition.appliesTo s.symbol = true) :
    (dueAt? e.settings.interval ended).isSome := by
  cases hran with
  | empty _ hitems =>
    have hnone := Watchlist.any_appliesTo_of_beginPass_eq_nil h hitems id
    simp [hx, happ] at hnone
  | committed _ _ _ hdue => rw [hdue, Option.isSome_some]

end MarketAlerts.Engine
