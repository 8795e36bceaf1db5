import MarketAlerts.Proofs.Engine.Verdicts

/-!
# Crossings

A condition with an operator for crossings fires when the value has come from the one side of the
threshold to the other since its last value, whatever passes, edits, calls and failures lie between
the two values.

- `course_crossings`: when such a condition fires, from its registration on;
- `fires_without_value_before`: a condition that is registered under the identifier of another one
  while a pass has that one in flight can fire at its first value.
-/

namespace MarketAlerts.Engine.Session

open Evaluation (Verdict)

/-- A condition for crossings fires exactly when its value crosses the threshold. For every session
and every condition that is registered in it and that no pass has taken up, in every course of
calls, steps and edits in which it is not removed:

- a reading is satisfied exactly if there is a value before it and a crossing from the last one,
  failures, readings without a value, passes without the condition and passes that are not
  committed having no part in it;
- the events of the condition are those of the readings that are satisfied;
- between two crossings there is a value on the side from which they start;
- a condition with the opposite operator and the same threshold that observes the same never fires
  on the same snapshot, if the same snapshots were seen. -/
theorem course_crossings {c : Condition} (hcrossing : c.operator.isCrossing = true) {s : Session}
    {steps : List (Instant × Happening)} (hrun : s.IsRunOf c steps) :
    let readings := s.readings c steps
    (∀ (k : Nat) (r : Reading), readings[k]? = some r → (r.satisfied = true ↔
      ∃ (j : Nat) (before : Reading), k = j + 1 ∧ readings[j]? = some before ∧
        c.operator.Crosses before.value.toRat r.value.toRat c.threshold.toRat)) ∧
    (eventsOf c.id (s.course steps).1).map (·.reading) = readings.filter (·.satisfied) ∧
    (∀ (i j : Nat) (r r' : Reading), i < j → readings[i]? = some r → readings[j]? = some r' →
      r.satisfied = true → r'.satisfied = true →
      ∃ (k : Nat) (between : Reading), i < k ∧ k < j ∧ readings[k]? = some between ∧
        c.operator.IsShort between.value.toRat c.threshold.toRat) ∧
    ∀ (c' : Condition) (s' : Session) (steps' : List (Instant × Happening)),
      c.operator.IsOpposite c'.operator → c'.observable = c.observable →
      c'.threshold.toRat = c.threshold.toRat → s'.IsRunOf c' steps' →
      s'.engine.settings.historyLimit = s.engine.settings.historyLimit →
      s'.snapshots c'.id steps' = s.snapshots c.id steps →
      ∀ (k : Nat) (v v' : Verdict), (s.verdicts c.id steps)[k]? = some v →
        (s'.verdicts c'.id steps')[k]? = some v' →
        ¬(v.isSatisfied = true ∧ v'.isSatisfied = true) := by
  intro readings
  obtain ⟨hverdicts, hevents⟩ := hrun.course
  have hreadings : readings =
      Evaluation.readings s.engine.settings.historyLimit c {} (s.snapshots c.id steps) :=
    congrArg (List.filterMap (Verdict.reading? c)) hverdicts
  -- all three laws are laws of a list in which each reading is compared with the one before
  have hcompares : Evaluation.Compares c none readings :=
    hreadings ▸ Evaluation.compares_readings _ c {} _
  refine ⟨fun k r hr => hcompares.satisfied_iff_crosses hcrossing hr, hreadings ▸ hevents,
    fun i j r r' hij hr hr' hsatisfied hsatisfied' =>
      hcompares.exists_isShort_between hcrossing hij hr hr' hsatisfied hsatisfied', ?_⟩
  intro c' s' steps' hopposite hobservable hthreshold hrun' hlimit hsnapshots k v v' hv hv'
  obtain ⟨hverdicts', -⟩ := hrun'.course
  -- both conditions have been shown the same snapshots
  rw [hverdicts] at hv
  rw [hverdicts', hlimit, hsnapshots] at hv'
  exact Evaluation.not_isSatisfied_verdicts hopposite hobservable hthreshold hv hv'

/-- The rule that the price of BTCUSDT crosses one hundred. -/
def crossing (id : String) (operator : Operator) : Condition :=
  { Condition.priceAbove id "BTCUSDT" with operator }

/-- A started engine with crossings of one hundred in both directions. -/
def ofCrossings : Session where
  engine := {
    watchlist := (({} : Watchlist).edit (.register (crossing "up" .crossesAbove))).edit
      (.register (crossing "down" .crossesBelow))
    running := true }

/-- A price below, one above in a pass that is cancelled, one below while the conditions are
switched off, one above, one that is exactly the threshold, and one above again. -/
def upAndDown : List (Instant × Happening) :=
  atOnce ([passOver 95] ++ advances 4 ++
    [passOver 105] ++ advances 2 ++ [.act .stop] ++ advances 2 ++ [.act .start] ++
    [.edit (.setActive "up" false), .edit (.setActive "down" false)] ++
    [passOver 90] ++ advances 1 ++
    [.edit (.setActive "up" true), .edit (.setActive "down" true)] ++
    [passOver 105] ++ advances 4 ++ [passOver 100] ++ advances 4 ++
    [passOver 105] ++ advances 4)

/-- Prices that go up and down are a run of either condition. -/
theorem isRunOf_crossing {id : String} {operator : Operator}
    (hitem : ofCrossings.engine.watchlist.item? id = some (.ofCondition (crossing id operator))) :
    ofCrossings.IsRunOf (crossing id operator) upAndDown where
  reachable := ⟨ofCrossings.engine, 0, [], .edit (.register (crossing "down" .crossesBelow))
    (.edit (.register (crossing "up" .crossesAbove)) .empty), rfl⟩
  isNew := ⟨hitem, by rintro f ⟨⟩⟩
  kept := by simp [upAndDown, atOnce, advances, passOver]

/-- The price rises twice above one hundred, and it was not above in between. It never falls below
at the same time. -/
theorem course_crossings_ofCrossings :
    let up := crossing "up" .crossesAbove
    let readings := ofCrossings.readings up upAndDown
    up.operator.isCrossing = true ∧ ofCrossings.IsRunOf up upAndDown ∧
      readings.map (·.satisfied) = [false, true, false, true] ∧
      (∃ (k : Nat) (between : Reading), 1 < k ∧ k < 3 ∧ readings[k]? = some between ∧
        up.operator.IsShort between.value.toRat up.threshold.toRat) ∧
      ∀ (k : Nat) (v v' : Verdict), (ofCrossings.verdicts "up" upAndDown)[k]? = some v →
        (ofCrossings.verdicts "down" upAndDown)[k]? = some v' →
        ¬(v.isSatisfied = true ∧ v'.isSatisfied = true) := by
  intro up readings
  have hcrossing : up.operator.isCrossing = true := rfl
  have hup : ofCrossings.IsRunOf up upAndDown := isRunOf_crossing rfl
  have hdown : ofCrossings.IsRunOf (crossing "down" .crossesBelow) upAndDown := isRunOf_crossing rfl
  have hsatisfied : readings.map (·.satisfied) = [false, true, false, true] := by decide +kernel
  obtain ⟨-, -, hbetween, hopposite⟩ := course_crossings hcrossing hup
  have hfirst : (readings.map (·.satisfied))[1]? = some true := by rw [hsatisfied]; rfl
  have hsecond : (readings.map (·.satisfied))[3]? = some true := by rw [hsatisfied]; rfl
  rw [List.getElem?_map] at hfirst hsecond
  obtain ⟨r, hr, hfires⟩ := Option.map_eq_some_iff.1 hfirst
  obtain ⟨r', hr', hfires'⟩ := Option.map_eq_some_iff.1 hsecond
  exact ⟨hcrossing, hup, hsatisfied, hbetween 1 3 r r' (by decide) hr hr' hfires hfires',
    hopposite (crossing "down" .crossesBelow) ofCrossings upAndDown trivial rfl rfl hdown rfl
      (by decide +kernel)⟩

/-- The rule that the volume of BTCUSDT is above one hundred. -/
def volumeAbove (id : String) : Condition :=
  { Condition.priceAbove id "BTCUSDT" with observable := .volume }

/-- A pass has taken up a condition on the volume, which is then replaced by a crossing under its
identifier. The value of the one becomes the value before of the other: the crossing fires at the
first price that it is evaluated on, although all prices are above the threshold. -/
theorem fires_without_value_before :
    let start : Session := ⟨{
      watchlist := ({} : Watchlist).edit (.register (volumeAbove "c1")), running := true }, [], 0⟩
    let before := atOnce ([passOver 150] ++ advances 1 ++
      [.edit (.unregister "c1"), .edit (.register (crossing "c1" .crossesAbove))])
    let after := atOnce (advances 2 ++ [passOver 160] ++ advances 3)
    let s := (start.course before).2
    s.Reachable ∧
      s.engine.watchlist.item? "c1" = some (.ofCondition (crossing "c1" .crossesAbove)) ∧
      (∀ step ∈ after, step.2 ≠ .edit (.unregister "c1")) ∧
      ((s.evaluations "c1" after).filter fun x => x.item.condition.operator = .crossesAbove).map
        (·.snapshot.price) = [.ofInt64 160] ∧
      (eventsOf "c1" (s.course after).1).map (fun e => (e.reading.value, e.reading.satisfied)) =
        [(.ofInt64 160, true)] := by
  refine ⟨⟨_, 0, _, .edit (.register (volumeAbove "c1")) .empty, rfl⟩, rfl, ?_,
    by decide +kernel, by decide +kernel⟩
  simp [atOnce, advances, passOver]

end MarketAlerts.Engine.Session
