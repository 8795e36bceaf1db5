import MarketAlerts.Proofs.Configuration.Validation
import MarketAlerts.Proofs.Engine.Verdicts
import MarketAlerts.Proofs.Evaluation.WarmUp

/-!
# Which conditions of a configuration warm up

Validation checks the parameters of an indicator, and that some prices are kept. It does not compare
how many are kept with how many the indicator needs. So a technical condition of a valid
configuration has values from some evaluation on, or it never has any.

- `check_of_parseEntry`, `check_of_hasCondition`: the parameters of the indicators of conditions
  make sense;
- `warmUp_ends_or_lasts`: when evaluations of a condition have values;
- `warmUp_lasts_ofAverage`: a condition of a valid configuration that never has a value.
-/

namespace MarketAlerts

open Evaluation (Verdict)

/-- An indicator that was parsed has periods in range. -/
theorem Condition.Entry.check_of_parseIndicator {e : Condition.Entry} {indicator : Indicator}
    (h : e.parseIndicator = .ok indicator) : indicator.check = .ok () := by
  unfold parseIndicator at h
  split at h
  case h_6 => cases h
  all_goals
    repeat obtain ⟨_, -, h⟩ := exists_of_bind_eq_ok h
    -- the parameters are read, and the last step checks them
    dsimp only at h
    split at h
    next hcheck =>
      cases h
      exact hcheck
    next => cases h

/-- A technical observable is that of the indicator of its entry. -/
theorem Condition.Entry.parseIndicator_of_parseObservable {e : Condition.Entry}
    {indicator : Indicator} (h : e.parseObservable = .ok (.technical indicator)) :
    e.parseIndicator = .ok indicator := by
  unfold parseObservable at h
  split at h
  case h_5 =>
    cases hindicator : e.parseIndicator with
    | error defect => simp [hindicator, Except.map] at h
    | ok parsed => simpa [hindicator, Except.map] using h
  case h_3 | h_4 =>
    dsimp only at h
    split at h <;> cases h
  all_goals cases h

/-- The parameters of the indicator of a condition that is read make sense. -/
theorem Condition.check_of_parseEntry {freshId : String} {e : Condition.Entry} {c : Condition}
    {indicator : Indicator} (h : Condition.parseEntry freshId e = .ok c)
    (htechnical : c.observable = .technical indicator) : indicator.check = .ok () := by
  obtain ⟨observable, hobservable, h⟩ := exists_of_bind_eq_ok h
  obtain ⟨operator, -, h⟩ := exists_of_bind_eq_ok h
  obtain ⟨priority, -, h⟩ := exists_of_bind_eq_ok h
  cases h
  subst htechnical
  exact Condition.Entry.check_of_parseIndicator
    (Condition.Entry.parseIndicator_of_parseObservable hobservable)

namespace Configuration

/-- A condition of the configuration. Its identifier may have been drawn. -/
def HasCondition (config : Configuration) (c : Condition) : Prop :=
  ∃ e ∈ config.conditions, ∃ freshId, Condition.parseEntry freshId e = .ok c

variable {config : Configuration} {c : Condition} {indicator : Indicator}

/-- The indicator of a condition of the configuration has periods in range. -/
theorem check_of_hasCondition (h : config.HasCondition c)
    (htechnical : c.observable = .technical indicator) : indicator.check = .ok () := by
  obtain ⟨e, -, freshId, hparse⟩ := h
  exact Condition.check_of_parseEntry hparse htechnical

open Engine (Session) in
/-- When evaluations of a technical condition have values. For every valid configuration and every
technical condition of it, from its registration on, in every course of calls, steps and edits in
which it is not removed, under the limit that the configuration sets for histories:

- if the indicator needs at most as many prices as are kept, no evaluation is a warm-up once as many
  evaluations have succeeded as it needs prices, the evaluation itself included;
- if the indicator needs more prices than are kept, every evaluation is a warm-up. -/
theorem warmUp_ends_or_lasts (hvalid : config.validate = .ok ()) (hc : config.HasCondition c)
    (htechnical : c.observable = .technical indicator) {s : Session}
    {steps : List (Instant × Session.Happening)} (hrun : s.IsRunOf c steps)
    (hlimit : s.engine.settings.historyLimit = config.general.historyLimit) :
    let verdicts := s.verdicts c.id steps
    ∀ (k : Nat) (v : Verdict), verdicts[k]? = some v →
      (indicator.requiredHistory ≤ config.general.historyLimit →
        indicator.requiredHistory ≤ (verdicts.take k).countP Except.isOk + 1 →
        v.isWarmUp c = false) ∧
      (config.general.historyLimit < indicator.requiredHistory → v.isWarmUp c = true) := by
  intro verdicts k v hv
  have hcheck := check_of_hasCondition hc htechnical
  -- validation asks for no more than this of the limit
  have hpos : config.general.historyLimit ≠ 0 :=
    (validate_eq_ok_iff.1 hvalid).general.historyLimit
  have hiff : v.isWarmUp c = true ↔ min ((verdicts.take k).countP Except.isOk + 1)
      config.general.historyLimit < indicator.requiredHistory := by
    have hverdicts := hrun.course.1
    rw [hlimit] at hverdicts
    simp only [verdicts, hverdicts] at hv ⊢
    rw [Evaluation.isWarmUp_verdicts_iff htechnical hcheck (Nat.zero_le _) hv,
      Nat.max_eq_left (by omega)]
    simp only [List.length_nil, Nat.zero_add]
  constructor
  · intro hle hsucceeded
    rw [← Bool.not_eq_true, hiff]
    omega
  · intro hlt
    rw [hiff]
    omega

/-- The rule that the average price of BTCUSDT is above zero, as it is written down. -/
def averageEntry (period : Int) : Condition.Entry where
  id := some "c1"
  name := "average"
  symbol := "BTCUSDT"
  typeName := "technical"
  metric := none
  indicator := some "sma"
  params := [("period", .int period)]
  operator := "greater_than"
  threshold := .zero
  priority := none
  active := true
  metadata := []

/-- The same rule as a condition. -/
def averageAbove (period : Nat) : Condition where
  id := "c1"
  name := "average"
  symbol := "BTCUSDT"
  observable := .technical (.sma period)
  operator := .greaterThan
  threshold := .zero

/-- A configuration that keeps two prices, for an average over a period. -/
def ofAverage (period : Int) : Configuration where
  general := { historyLimit := 2, strategy := "parallel" }
  conditions := [averageEntry period]
  channels := []
  templates := []

/-- A started engine of this configuration. -/
def averaging (period : Nat) : Engine.Session where
  engine := {
    settings := (ofAverage period).engineSettings
    watchlist := ({} : Watchlist).edit (.register (averageAbove period))
    running := true }

open Engine.Session in
/-- Completed passes over the price of BTCUSDT, one after the other. -/
def passes (count : Nat) : List (Instant × Happening) :=
  atOnce (List.replicate count (passOver 100 :: advances 3)).flatten

/-- These passes are a run of its condition. -/
theorem isRunOf_averaging (period count : Nat) :
    (averaging period).IsRunOf (averageAbove period) (passes count) where
  reachable :=
    ⟨(averaging period).engine, 0, [], .edit (.register (averageAbove period)) .empty, rfl⟩
  isNew := ⟨rfl, by rintro f ⟨⟩⟩
  kept step hstep := by
    obtain ⟨x, hx, rfl⟩ := List.mem_map.1 hstep
    obtain ⟨xs, hxs, hx⟩ := List.mem_flatten.1 hx
    rw [List.eq_of_mem_replicate hxs] at hx
    rcases List.mem_cons.1 hx with rfl | hx
    · nofun
    · rw [List.eq_of_mem_replicate hx]
      nofun

/-- An average over two prices, of which two are kept, has a value at the second evaluation if it
does not fail. -/
theorem warmUp_ends_ofAverage :
    (ofAverage 2).validate = .ok () ∧ (ofAverage 2).HasCondition (averageAbove 2) ∧
      (averageAbove 2).observable = .technical (.sma 2) ∧
      (averaging 2).IsRunOf (averageAbove 2) (passes 2) ∧
      (averaging 2).engine.settings.historyLimit = (ofAverage 2).general.historyLimit ∧
      ∃ v, ((averaging 2).verdicts (averageAbove 2).id (passes 2))[1]? = some v ∧
        v.isWarmUp (averageAbove 2) = false := by
  have hvalid : (ofAverage 2).validate = .ok () := validate_eq_ok_of_isOk (by decide +kernel)
  have hc : (ofAverage 2).HasCondition (averageAbove 2) :=
    ⟨averageEntry 2, List.mem_cons_self, "", rfl⟩
  have hrun := isRunOf_averaging 2 2
  have htwo : 1 < ((averaging 2).verdicts (averageAbove 2).id (passes 2)).length := by
    decide +kernel
  have hone :
      (((averaging 2).verdicts (averageAbove 2).id (passes 2)).take 1).countP Except.isOk = 1 := by
    decide +kernel
  have hv := List.getElem?_eq_getElem htwo
  have hends := (warmUp_ends_or_lasts hvalid hc rfl hrun rfl 1 _ hv).1
  exact ⟨hvalid, hc, rfl, hrun, rfl, _, hv, hends (by decide) (by rw [hone]; decide)⟩

/-- An average over three prices, of which two are kept, is still warming up after four evaluations
that succeeded, although its configuration is valid. -/
theorem warmUp_lasts_ofAverage :
    (ofAverage 3).validate = .ok () ∧ (ofAverage 3).HasCondition (averageAbove 3) ∧
      (averageAbove 3).observable = .technical (.sma 3) ∧
      (averaging 3).IsRunOf (averageAbove 3) (passes 5) ∧
      (averaging 3).engine.settings.historyLimit = (ofAverage 3).general.historyLimit ∧
      (Indicator.sma 3).requiredHistory ≤
        (((averaging 3).verdicts "c1" (passes 5)).take 4).countP Except.isOk ∧
      ∃ v, ((averaging 3).verdicts "c1" (passes 5))[4]? = some v ∧
        v.isWarmUp (averageAbove 3) = true := by
  have hvalid : (ofAverage 3).validate = .ok () := validate_eq_ok_of_isOk (by decide +kernel)
  have hwarm : (((averaging 3).verdicts "c1" (passes 5))[4]?).map
      (Verdict.isWarmUp (averageAbove 3)) = some true := by decide +kernel
  exact ⟨hvalid, ⟨averageEntry 3, List.mem_cons_self, "", rfl⟩, rfl, isRunOf_averaging 3 5, rfl,
    by decide +kernel, Option.map_eq_some_iff.1 hwarm⟩

end Configuration

end MarketAlerts
