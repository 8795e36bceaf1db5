import MarketAlerts.Engine.Basic
import MarketAlerts.Proofs.Watchlist.Passes

/-!
# Which registration an outcome reaches

The outcome of a pass is meant for the registration that the pass took up. While the pass is under
way, edits can take a condition out of it: the condition is removed or switched off. A commit looks
only at who is registered and active under the identifier when it comes to the outcome, so that a
condition which has come back by then gets the outcome although it was taken out.

- `commitPass_passesOver_iff`: a commit passes over a condition that was taken out of the pass
  exactly if the identifier is not active again; every other outcome reaches the registration that
  it was evaluated for;
- `commit_reaches_later_registration`: an outcome that reaches a registration of another symbol.
-/

namespace MarketAlerts.Watchlist

/-- Whether an edit takes the active condition with an identifier out of a pass. -/
def Edit.interrupts (id : String) : Edit → Bool
  | .register _ => false
  | .unregister other => other = id
  | .setActive other active => other = id && !active

/-- Whether the condition waits for its next pass: it is not marked and has no outcome yet that
its status tells of. -/
def IsAtRest (x : PassItem) : Prop := x.condition.record.status = .atRest x.condition.active

/-- Whether a commit passed over a condition: its watch is as it was, and nothing of it is given
back. -/
def PassesOver (before : Watchlist) (result : List (Condition × Reading) × Watchlist)
    (id : String) : Prop :=
  result.2.watch? id = before.watch? id ∧ ∀ p ∈ result.1, p.1.id ≠ id

section Edits

variable {id : String} {d : Edit} {x : PassItem}

/-- An edit that does not take an active condition out of a pass leaves it as it is. -/
theorem on_eq_self_of_not_interrupts (hactive : x.condition.active = true)
    (hd : d.interrupts id = false) : d.on id (some x) = some x := by
  cases d with
  | register c => simp [Edit.on]
  | unregister other => simpa [Edit.on, Edit.interrupts] using hd
  | setActive other active =>
    by_cases hid : other = id
    · have hon : active = true := by simpa [Edit.interrupts, hid] using hd
      simp [Edit.on, hid, hon, PassItem.setActive, hactive]
    · simp [Edit.on, hid]

/-- A switch brings a condition to rest, or leaves it there. -/
theorem isAtRest_setActive (active : Bool) (h : x.condition.active = active → IsAtRest x) :
    IsAtRest (x.setActive active) := by
  unfold PassItem.setActive
  split
  next hactive => exact h hactive
  next => rfl

/-- A condition at rest stays so under edits. -/
theorem isAtRest_on {x : Option PassItem} (h : ∀ y ∈ x, IsAtRest y) :
    ∀ y ∈ d.on id x, IsAtRest y := by
  intro y hy
  cases d with
  | register c =>
    simp only [Edit.on] at hy
    split at hy
    next =>
      cases x with
      | none =>
        obtain rfl : PassItem.ofCondition c = y := by simpa using hy
        rfl
      | some x => exact h y (by simpa using hy)
    next => exact h y hy
  | unregister other =>
    simp only [Edit.on] at hy
    split at hy
    next => simp at hy
    next => exact h y hy
  | setActive other active =>
    simp only [Edit.on] at hy
    split at hy
    next =>
      obtain ⟨x, rfl, rfl⟩ : ∃ z, x = some z ∧ z.setActive active = y := by
        simpa using hy
      exact isAtRest_setActive active fun _ => h x rfl
    next => exact h y hy

/-- What an edit that takes a condition out of a pass leaves of it is at rest. -/
theorem isAtRest_on_of_interrupts (hactive : x.condition.active = true)
    (hd : d.interrupts id = true) : ∀ y ∈ d.on id (some x), IsAtRest y := by
  intro y hy
  cases d with
  | register c => simp [Edit.interrupts] at hd
  | unregister other =>
    have hid : other = id := by simpa [Edit.interrupts] using hd
    simp [Edit.on, hid] at hy
  | setActive other active =>
    have hid : other = id ∧ active = false := by simpa [Edit.interrupts] using hd
    obtain rfl : x.setActive false = y := by simpa [Edit.on, hid] using hy
    exact isAtRest_setActive false fun hoff => by simp [hactive] at hoff

/-- Edits leave an active condition as it is until one of them takes it out of the pass, and from
then on whatever is registered under the identifier is at rest. -/
theorem foldl_on_of_active (hactive : x.condition.active = true) (ds : List Edit) :
    if ds.any (Edit.interrupts id) then
      ∀ y ∈ ds.foldl (fun x d => d.on id x) (some x), IsAtRest y
    else ds.foldl (fun x d => d.on id x) (some x) = some x := by
  -- up to the first edit that takes the condition out, `x` stays the same
  induction ds with
  | nil => simp
  | cons d ds ih =>
    rw [List.foldl_cons, List.any_cons]
    cases hd : d.interrupts id with
    | false => simpa [on_eq_self_of_not_interrupts hactive hd] using ih
    | true =>
      -- once at rest, always at rest
      have hrest : ∀ (es : List Edit) (z : Option PassItem), (∀ y ∈ z, IsAtRest y) →
          ∀ y ∈ es.foldl (fun x d => d.on id x) z, IsAtRest y := by
        intro es
        induction es with
        | nil => exact fun z hz => hz
        | cons e es ih => exact fun z hz => ih _ (isAtRest_on hz)
      simpa using hrest ds _ (isAtRest_on_of_interrupts hactive hd)

end Edits

/-- An outcome that is applied to a condition at rest changes it. -/
theorem apply_ne_self_of_isAtRest {w : Watch} (hrest : IsAtRest w.item) (now : Instant)
    (next : Option Instant) (o : Outcome) : w.apply now next o ≠ w := by
  intro h
  have hrecord := congrArg (fun v : Watch => v.condition.record) h
  cases o with
  | evaluated reading memory =>
    -- one more evaluation is counted
    have hcount := congrArg Condition.Record.evaluations hrecord
    simp [Watch.apply, Condition.Record.count] at hcount
  | failed id message =>
    -- no condition at rest has the status of a failure
    have hstatus := congrArg Condition.Record.status hrecord
    simp only [Watch.apply, Condition.Record.fail] at hstatus
    have hne : Condition.Status.error ≠ .atRest w.condition.active := by
      unfold Condition.Status.atRest
      split <;> simp
    exact hne (hstatus.trans hrest)

/-- A condition of a pass after edits: it is as the pass took it up unless it was taken out of the
pass, and then whatever is registered under its identifier is at rest. -/
theorem item?_editAll_of_mem_beginPass {l : Watchlist} (hnodup : l.ids.Nodup) {symbol : String}
    {x : PassItem} (hx : x ∈ (l.beginPass symbol).1) (ds : List Edit) :
    let found := ((l.beginPass symbol).2.editAll ds).item? x.condition.id
    x.condition.active = true ∧
    if ds.any (Edit.interrupts x.condition.id) then ∀ y ∈ found, IsAtRest y
    else found = some x := by
  obtain ⟨w, hw, happ, hbegin⟩ := (mem_beginPass_iff hnodup).1 hx
  have hactive : x.condition.active = true := by
    rw [hbegin]
    exact Condition.active_of_appliesTo happ
  have hfound : (l.beginPass symbol).2.item? x.condition.id = some x := by
    rw [item?, watch?_beginPass, hw]
    simp [markFor, happ, hbegin]
  refine ⟨hactive, ?_⟩
  rw [item?_editAll, hfound]
  exact foldl_on_of_active hactive ds

section PassesOver

variable {l : Watchlist} {now : Instant} {next : Option Instant} {os : List Outcome}

/-- A commit gives back only conditions that it finds active, under the identifiers of outcomes. -/
theorem exists_active_of_mem_commitPass (hnodup : l.ids.Nodup)
    (hos : (os.map Outcome.conditionId).Nodup) {p : Condition × Reading}
    (hp : p ∈ (l.commitPass now next os).1) :
    p.1.id ∈ os.map Outcome.conditionId ∧
      ∃ w, l.watch? p.1.id = some w ∧ w.condition.active = true := by
  rw [commitPass_fst hnodup hos] at hp
  obtain ⟨o, ho, hreported⟩ := List.mem_filterMap.1 hp
  have hid := id_of_reported? hreported
  refine ⟨hid ▸ List.mem_map_of_mem ho, ?_⟩
  cases o with
  | failed id message => simp [reported?] at hreported
  | evaluated reading memory =>
    obtain ⟨w, hw, -⟩ := Option.map_eq_some_iff.1 hreported
    exact ⟨w, hid ▸ (Option.filter_eq_some_iff.1 hw).1, (Option.filter_eq_some_iff.1 hw).2⟩

/-- A condition without an outcome is passed over. -/
theorem passesOver_of_notMem (hnodup : l.ids.Nodup) (hos : (os.map Outcome.conditionId).Nodup)
    {id : String} (hid : id ∉ os.map Outcome.conditionId) :
    PassesOver l (l.commitPass now next os) id := by
  refine ⟨watch?_commitPass_of_notMem hnodup hid, fun p hp hpid => ?_⟩
  exact hid (hpid ▸ (exists_active_of_mem_commitPass hnodup hos hp).1)

/-- An outcome is applied to the condition under its identifier if that is active. -/
theorem watch?_commitPass_of_active (hnodup : l.ids.Nodup)
    (hos : (os.map Outcome.conditionId).Nodup) {o : Outcome} (ho : o ∈ os) {w : Watch}
    (hw : l.watch? o.conditionId = some w) (hactive : w.condition.active = true) :
    (l.commitPass now next os).2.watch? o.conditionId = some (w.apply now next o) := by
  rw [watch?_commitPass_of_mem hnodup hos ho, hw, Option.map_some, Watch.applyIfActive,
    if_pos hactive]

/-- A condition that is not active any more is passed over. -/
theorem passesOver_of_inactive (hnodup : l.ids.Nodup) (hos : (os.map Outcome.conditionId).Nodup)
    {o : Outcome} (ho : o ∈ os)
    (hinactive : ∀ w, l.watch? o.conditionId = some w → w.condition.active = false) :
    PassesOver l (l.commitPass now next os) o.conditionId := by
  constructor
  · rw [watch?_commitPass_of_mem hnodup hos ho]
    cases hw : l.watch? o.conditionId with
    | none => rfl
    | some w => simp [Watch.applyIfActive, hinactive w hw]
  · intro p hp hpid
    obtain ⟨-, w, hw, hactive⟩ := exists_active_of_mem_commitPass hnodup hos hp
    rw [hinactive w (hpid ▸ hw)] at hactive
    cases hactive

/-- Where the condition under the identifier of an outcome is at rest, the commit passes over it
exactly if it is not active. -/
theorem passesOver_iff_inactive (hnodup : l.ids.Nodup) (hos : (os.map Outcome.conditionId).Nodup)
    {o : Outcome} (ho : o ∈ os) (hrest : ∀ y ∈ l.item? o.conditionId, IsAtRest y) :
    PassesOver l (l.commitPass now next os) o.conditionId ↔
      ∀ w, l.watch? o.conditionId = some w → w.condition.active = false := by
  refine ⟨fun hover w hw => ?_, passesOver_of_inactive hnodup hos ho⟩
  -- an applied outcome would show
  by_contra hactive
  have hsame := hover.1
  rw [watch?_commitPass_of_active hnodup hos ho hw (by simpa using hactive), hw,
    Option.some.injEq] at hsame
  exact apply_ne_self_of_isAtRest (hrest w.item (by simp [item?, hw])) now next o hsame

end PassesOver

/-- For every pass, whatever edits come between its beginning and its commit, and whatever its
outcomes are: an outcome whose condition was not taken out of the pass reaches the very
registration that was taken up, in the state in which it was taken up. A condition that was taken
out is passed over exactly if nothing active is registered under its identifier at the commit; else
the outcome is applied to what is registered there by then. Conditions without an outcome are
passed over. -/
theorem commitPass_passesOver_iff {l : Watchlist} (h : l.Reachable) (symbol : String)
    (ds : List Edit) (now : Instant) (next : Option Instant) {outcomes : List Outcome}
    (hids : outcomes.map Outcome.conditionId = (l.beginPass symbol).1.map (·.condition.id)) :
    let edited := (l.beginPass symbol).2.editAll ds
    let result := edited.commitPass now next outcomes
    (∀ id ∉ outcomes.map Outcome.conditionId, PassesOver edited result id) ∧
    ∀ o ∈ outcomes,
      (ds.any (Edit.interrupts o.conditionId) = false →
        ∃ x ∈ (l.beginPass symbol).1, x.condition.id = o.conditionId ∧
        ∃ w, edited.watch? o.conditionId = some w ∧ w.item = x ∧
          result.2.watch? o.conditionId = some (w.apply now next o)) ∧
      (ds.any (Edit.interrupts o.conditionId) = true →
        (PassesOver edited result o.conditionId ↔
          ∀ w, edited.watch? o.conditionId = some w → w.condition.active = false) ∧
        ∀ w, edited.watch? o.conditionId = some w → w.condition.active = true →
          result.2.watch? o.conditionId = some (w.apply now next o)) := by
  intro edited result
  have hnodup : edited.ids.Nodup := nodup_ids_editAll (by simpa using h.nodup) ds
  have hos : (outcomes.map Outcome.conditionId).Nodup :=
    hids ▸ h.nodup.sublist (beginPass_sublist l symbol)
  refine ⟨fun id hid => passesOver_of_notMem hnodup hos hid, fun o ho => ?_⟩
  -- the condition of the outcome as the pass took it up
  obtain ⟨x, hx, hxid⟩ : ∃ x ∈ (l.beginPass symbol).1, x.condition.id = o.conditionId := by
    have hmem := List.mem_map_of_mem (f := Outcome.conditionId) ho
    rw [hids] at hmem
    exact List.mem_map.1 hmem
  obtain ⟨hactive, hfound⟩ := item?_editAll_of_mem_beginPass h.nodup hx ds
  rw [hxid] at hfound
  constructor
  · intro hany
    rw [if_neg (by simp [hany])] at hfound
    obtain ⟨w, hw, hwx⟩ := Option.map_eq_some_iff.1 hfound
    have hwactive : w.condition.active = true := by
      rw [← Watch.item_condition, hwx, hactive]
    exact ⟨x, hx, hxid, w, hw, hwx, watch?_commitPass_of_active hnodup hos ho hw hwactive⟩
  · intro hany
    rw [if_pos hany] at hfound
    exact ⟨passesOver_iff_inactive hnodup hos ho hfound,
      fun w hw hwactive => watch?_commitPass_of_active hnodup hos ho hw hwactive⟩

/-- A condition that is removed before the commit is passed over. -/
theorem commitPass_passesOver_removed :
    let l := ({} : Watchlist).edit (.register (.priceAbove "c1" "BTCUSDT"))
    let edited := (l.beginPass "BTCUSDT").2.editAll [.unregister "c1"]
    let outcome := Outcome.evaluated ⟨"c1", true, .hundred, "price"⟩ {}
    l.Reachable ∧
      [outcome].map Outcome.conditionId = (l.beginPass "BTCUSDT").1.map (·.condition.id) ∧
      PassesOver edited (edited.commitPass ⟨0, 0⟩ none [outcome]) "c1" := by
  intro l edited outcome
  have hreach : l.Reachable := .edit _ .empty
  have hids : [outcome].map Outcome.conditionId =
      (l.beginPass "BTCUSDT").1.map (·.condition.id) := rfl
  have houtcome := (commitPass_passesOver_iff hreach "BTCUSDT" [.unregister "c1"] ⟨0, 0⟩ none
    hids).2 outcome List.mem_cons_self
  exact ⟨hreach, hids, (houtcome.2 rfl).1.2 fun w hw => by cases hw⟩

/-- A condition that is removed while a pass is under way is not passed over if another one is
registered under its identifier before the commit: the other one, of a symbol that the pass was not
about, is then triggered by the price that the pass saw. -/
theorem commit_reaches_later_registration :
    let l := ({} : Watchlist).edit (.register (.priceAbove "c1" "BTCUSDT"))
    let pass := l.beginPass "BTCUSDT"
    let ds := [.unregister "c1", .register (.priceAbove "c1" "ETHUSDT")]
    let edited := pass.2.editAll ds
    let snapshot := (Quote.ofPrice "BTCUSDT" (.ofInt64 101)).atTime ⟨0, 0⟩
    let outcomes := pass.1.map fun x => (x.outcome? 500 snapshot).getD x.broken
    let result := edited.commitPass ⟨0, 0⟩ none outcomes
    ds.any (Edit.interrupts "c1") = true ∧ ¬ PassesOver edited result "c1" ∧
      (result.2.get? "c1").map (fun c => (c.symbol, c.record.triggers)) = some ("ETHUSDT", 1) := by
  intro l pass ds edited snapshot outcomes result
  have hbefore : (edited.get? "c1").map (fun c => (c.symbol, c.record.triggers)) =
      some ("ETHUSDT", 0) := by rfl
  have hafter : (result.2.get? "c1").map (fun c => (c.symbol, c.record.triggers)) =
      some ("ETHUSDT", 1) := by rfl
  refine ⟨rfl, fun hover => ?_, hafter⟩
  rw [get?, hover.1, ← get?, hbefore] at hafter
  simp at hafter

end MarketAlerts.Watchlist
