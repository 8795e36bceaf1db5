import MarketAlerts.Proofs.Engine.Outcomes
import MarketAlerts.Proofs.Engine.Steps

/-!
# The results of a pass in flight

A pass in flight keeps a place for the result of each of its conditions, and its conditions may be
evaluated in any order.

- `Flight.Records`: the results so far are outcomes of the conditions at their places;
- `Flight.Records.set`: one more evaluation keeps it so;
- `Flight.Records.outcomes_eq`, `Flight.Records.outcomes?_eq`: once nothing is pending, the outcomes
  are those of all conditions in their order, and no evaluation of a pass from condition to
  condition has overflowed;
- `Session.advance_turns`: whichever conditions are picked, after as many turns as there are
  conditions the pass commits the outcomes of all of them. -/

namespace MarketAlerts.Engine

namespace Flight

/-- The results of a pass so far are outcomes of its conditions. In a pass from condition to
condition there is no result of an evaluation that overflows. -/
structure Records (f : Flight) (settings : Settings) (s : Snapshot) : Prop where
  length : f.results.length = f.items.length
  results : ∀ (i : Nat) (x : PassItem) (r : Option Outcome),
    f.items[i]? = some x → f.results[i]? = some (some r) → r = x.outcome? settings.historyLimit s
  isSome : settings.strategy = .sequential → ∀ r : Option Outcome, some r ∈ f.results → r.isSome

variable {f : Flight} {settings : Settings} {s : Snapshot}

/-- At its beginning a pass has no results. -/
theorem records_ofItems (context : PassContext) (items : List PassItem) :
    (ofItems context items).Records settings s where
  length := by simp [ofItems]
  results i x r hx hr := by
    -- there are no results yet
    rw [ofItems, List.getElem?_map, Option.map_eq_some_iff] at hr
    obtain ⟨_, _, hnone⟩ := hr
    cases hnone
  isSome _ r hr := by
    rw [ofItems, List.mem_map] at hr
    obtain ⟨_, _, hnone⟩ := hr
    cases hnone

/-- One more result is the outcome of its condition. -/
theorem Records.set (h : f.Records settings s) {i : Nat} {item : PassItem}
    (hitem : f.items[i]? = some item)
    (houtcome : settings.strategy = .sequential →
      (item.outcome? settings.historyLimit s).isSome) :
    { f with results := f.results.set i (some (item.outcome? settings.historyLimit s)) }.Records
      settings s := by
  refine ⟨by simpa using h.length, fun j x r hx hr => ?_, fun hstrategy r hr => ?_⟩
  · -- only the result at the place of the condition is new
    dsimp only at hx hr
    rw [List.getElem?_set] at hr
    split at hr
    next hij =>
      subst hij
      rw [hitem, Option.some.injEq] at hx
      split at hr
      next =>
        rw [Option.some.injEq, Option.some.injEq] at hr
        rw [← hr, hx]
      next => cases hr
    next => exact h.results j x r hx hr
  · rcases List.mem_or_eq_of_mem_set hr with hr | hr
    · exact h.isSome hstrategy r hr
    · rw [Option.some.injEq] at hr
      exact hr ▸ houtcome hstrategy

/-- Once nothing is pending there is a result for every condition. -/
theorem Records.getElem?_results (h : f.Records settings s) (hpending : f.pending = []) {i : Nat}
    {item : PassItem} (hitem : f.items[i]? = some item) :
    f.results[i]? = some (some (item.outcome? settings.historyLimit s)) := by
  have hi : i < f.items.length := (List.getElem?_eq_some_iff.1 hitem).1
  have hlt : i < f.results.length := h.length ▸ hi
  have hresult : f.results[i]? = some f.results[i] := List.getElem?_eq_getElem hlt
  cases hr : f.results[i] with
  | none =>
    -- a position without a result is pending
    rw [hr] at hresult
    have hmem : i ∈ f.pending := by simp [pending, hi, hresult]
    simp [hpending] at hmem
  | some r =>
    rw [hr] at hresult
    rw [hresult, h.results i item r hitem hresult]

/-- Once nothing is pending, the outcomes are those of all conditions in their order. -/
theorem Records.outcomes_eq (h : f.Records settings s) (hpending : f.pending = []) :
    f.outcomes = f.items.map (PassItem.outcome settings.historyLimit s) := by
  rw [outcomes]
  refine List.ext_getElem? fun i => ?_
  rw [List.getElem?_zipWith, List.getElem?_map]
  cases hitem : f.items[i]? with
  | none => rfl
  | some item =>
    rw [h.getElem?_results hpending hitem]
    rfl

/-- A pass that evaluates its conditions step by step has the outcomes of one that evaluates them at
once. -/
theorem Records.outcomes?_eq (h : f.Records settings s) (hpending : f.pending = []) :
    outcomes? settings s f.items = some f.outcomes := by
  rw [h.outcomes_eq hpending]
  refine outcomes?_eq_some fun hstrategy x hx => ?_
  obtain ⟨i, hi⟩ := List.mem_iff_getElem?.1 hx
  exact h.isSome hstrategy _ (List.mem_iff_getElem?.2 ⟨i, h.getElem?_results hpending hi⟩)

/-! ## What is pending -/

/-- At its beginning all conditions are to be evaluated. -/
theorem pending_ofItems (context : PassContext) (items : List PassItem) :
    (ofItems context items).pending = List.range items.length := by
  refine List.filter_eq_self.2 fun i hi => ?_
  have hlt : i < items.length := List.mem_range.1 hi
  simp [ofItems, hlt]

theorem nodup_pending (f : Flight) : f.pending.Nodup :=
  List.nodup_range.filter _

/-- With each evaluation one condition less is pending. -/
theorem length_pending_set (f : Flight) {i : Nat} (hi : i ∈ f.pending) (r : Option Outcome) :
    { f with results := f.results.set i (some r) }.pending.length + 1 = f.pending.length := by
  have hpending : { f with results := f.results.set i (some r) }.pending = f.pending.erase i := by
    rw [f.nodup_pending.erase_eq_filter, pending, pending, List.filter_filter]
    refine List.filter_congr fun j _ => ?_
    dsimp only
    rw [List.getElem?_set]
    by_cases hij : i = j
    · -- the place has a result from now on
      subst hij
      rw [if_pos rfl]
      split <;> simp
    · simp [hij, Ne.symm hij]
  rw [hpending, List.length_erase_of_mem hi]
  exact Nat.sub_add_cancel (List.length_pos_of_mem hi)

end Flight

/-! ## The turns of a pass -/

namespace Session

/-- Steps of the first call, each at its time and with its pick. -/
def turns (picks : List (Instant × Nat)) : List (Instant × Happening) :=
  picks.map fun (now, pick) => (now, .act (.advance pick))

variable {e : Engine} {start : Nat} {snapshot : Snapshot} (n ticket : Nat) (rest : List Call)

/-- While conditions are pending, a turn evaluates one of them. -/
theorem exists_flight_advance (hcancelled : e.isCancelled start = false) {f : Flight}
    (hrecords : f.Records e.settings snapshot) (hpending : f.pending ≠ [])
    (hitems : e.settings.strategy = .sequential →
      ∀ x ∈ f.items, (x.outcome? e.settings.historyLimit snapshot).isSome)
    (now : Instant) (pick : Nat) :
    ∃ f' : Flight,
      (Session.mk e (.pass ticket start snapshot (some f) :: rest) n).advance now pick =
        (none, ⟨e, .pass ticket start snapshot (some f') :: rest, n⟩) ∧
      f'.Records e.settings snapshot ∧ f'.items = f.items ∧ f'.context = f.context ∧
      f'.pending.length + 1 = f.pending.length := by
  have hstep :=
    step_advance (Session.mk e (.pass ticket start snapshot (some f) :: rest) n) now pick
  generalize Session.advance _ now pick = result at hstep ⊢
  obtain ⟨answer, s'⟩ := result
  cases hstep with
  | aborted hnot => simp [hcancelled] at hnot
  | committed _ hnil => exact absurd hnil hpending
  | @evaluated _ _ _ _ _ _ _ i item _ hi hitem houtcome =>
    exact ⟨_, rfl, hrecords.set hitem houtcome, rfl, rfl, f.length_pending_set hi _⟩
  | broken _ hstrategy _ hitem hnone =>
    -- no evaluation of a pass from condition to condition overflows
    have hsome := hitems hstrategy _ (List.mem_of_getElem? hitem)
    simp [hnone] at hsome

/-- After as many turns as there are conditions nothing is pending, whichever conditions were
picked. -/
theorem exists_flight_turns (hcancelled : e.isCancelled start = false)
    {picks : List (Instant × Nat)} {f : Flight} (hrecords : f.Records e.settings snapshot)
    (hlength : picks.length = f.pending.length)
    (hitems : e.settings.strategy = .sequential →
      ∀ x ∈ f.items, (x.outcome? e.settings.historyLimit snapshot).isSome) :
    ∃ f' : Flight, (Session.mk e (.pass ticket start snapshot (some f) :: rest) n).course
        (turns picks) = ([], ⟨e, .pass ticket start snapshot (some f') :: rest, n⟩) ∧
      f'.Records e.settings snapshot ∧ f'.items = f.items ∧ f'.context = f.context ∧
      f'.pending = [] := by
  induction picks generalizing f with
  | nil => exact ⟨f, rfl, hrecords, rfl, rfl, List.eq_nil_of_length_eq_zero hlength.symm⟩
  | cons turn picks ih =>
    obtain ⟨now, pick⟩ := turn
    rw [List.length_cons] at hlength
    have hpending : f.pending ≠ [] := List.ne_nil_of_length_pos (by omega)
    -- one turn leaves one condition fewer, and the records say what the others are
    obtain ⟨g, hadvance, hg, hgitems, hgcontext, hgpending⟩ :=
      exists_flight_advance n ticket rest hcancelled hrecords hpending hitems now pick
    obtain ⟨f', hcourse, hf', hf'items, hf'context, hnil⟩ :=
      ih hg (by omega) (hgitems ▸ hitems)
    refine ⟨f', ?_, hf', hf'items.trans hgitems, hf'context.trans hgcontext, hnil⟩
    rw [turns, List.map_cons, Session.course]
    simp only [happen, Session.apply, hadvance]
    rw [← turns, hcourse]
    rfl

/-- Once nothing is pending, the next turn commits the outcomes. -/
theorem advance_of_pending_eq_nil (hcancelled : e.isCancelled start = false) {f : Flight}
    (hpending : f.pending = []) (now : Instant) (pick : Nat) :
    (Session.mk e (.pass ticket start snapshot (some f) :: rest) n).advance now pick =
      (some (ticket, .pass (e.commitPass f.context now f.outcomes).1),
        ⟨(e.commitPass f.context now f.outcomes).2, rest, n⟩) := by
  unfold Session.advance stepFlight
  simp [hcancelled, hpending]

/-- What a pass hands over to be committed does not depend on the order in which its conditions are
evaluated. Where an evaluation overflows in a pass over all at once, its condition has failed. -/
theorem advance_turns (hcancelled : e.isCancelled start = false) (context : PassContext)
    {items : List PassItem}
    (hitems : e.settings.strategy = .sequential →
      ∀ x ∈ items, (x.outcome? e.settings.historyLimit snapshot).isSome)
    {picks : List (Instant × Nat)} (hlength : picks.length = items.length) :
    let s := Session.mk e (.pass ticket start snapshot (some (.ofItems context items)) :: rest) n
    let os := items.map (PassItem.outcome e.settings.historyLimit snapshot)
    (s.course (turns picks)).1 = [] ∧ ∀ now pick, (s.course (turns picks)).2.advance now pick =
      (some (ticket, .pass (e.commitPass context now os).1),
        ⟨(e.commitPass context now os).2, rest, n⟩) := by
  intro s os
  have hpending : picks.length = (Flight.ofItems context items).pending.length := by
    rw [Flight.pending_ofItems, List.length_range, hlength]
  obtain ⟨f, hcourse, hf, hfitems, hfcontext, hnil⟩ :=
    exists_flight_turns n ticket rest hcancelled (Flight.records_ofItems context items) hpending
      hitems
  have houtcomes : f.outcomes = os := by
    rw [hf.outcomes_eq hnil, hfitems]
    rfl
  have hcourse : s.course (turns picks) =
      ([], ⟨e, .pass ticket start snapshot (some f) :: rest, n⟩) := hcourse
  refine ⟨by rw [hcourse], fun now pick => ?_⟩
  rw [hcourse, advance_of_pending_eq_nil n ticket rest hcancelled hnil, houtcomes, hfcontext]
  rfl

end Session

end MarketAlerts.Engine
