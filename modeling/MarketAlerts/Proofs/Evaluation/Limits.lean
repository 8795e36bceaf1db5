import MarketAlerts.Proofs.Evaluation.History
import MarketAlerts.Proofs.Indicator.Locality

/-!
# Limits of the history that make no difference

A condition on an indicator that looks at the prices of a single period remembers more of them than
it needs if the limit of its history is above that period. Two evaluators that differ in the limit
then remember different prices, but the newest ones are the same, and nothing else counts.

## Main definitions

- `Agree`: two memories have the same value before and the same newest prices.

## Main results

- `technicalValue_rtake`: the newest value of the indicator is that over the newest prices;
- `Agree.evaluate`: what an evaluation preserves, and that both have the same reading;
- `verdicts_eq_of_limits`: so do evaluations in a row.
-/

namespace MarketAlerts.Evaluation

open Indicator (IsWindowed)

/-- Two memories have the same value before and the same prices of the newest period. -/
structure Agree (period : Nat) (m m' : Memory) : Prop where
  previous : m.previous = m'.previous
  history : m.history.rtake period = m'.history.rtake period

variable {period limit limit' : Nat} {indicator : Indicator} {c : Condition} {m m' : Memory}

/-! ## The newest prices -/

/-- Of a list that is short enough all is taken from the end. -/
theorem rtake_of_length_le {α : Type} {n : Nat} {xs : List α} (h : xs.length ≤ n) :
    xs.rtake n = xs := by
  rw [List.rtake, Nat.sub_eq_zero_of_le h, List.drop_zero]

/-- A limit that is not below a period leaves the newest period as it is. -/
theorem rtake_keepLast {α : Type} (h : period ≤ limit) (xs : List α) :
    (keepLast limit xs).rtake period = xs.rtake period := by
  rw [keepLast, List.rtake, List.rtake, List.drop_drop, List.length_drop]
  congr 1
  omega

/-- One more price keeps the newest prices the same, whatever is let go of behind them. -/
theorem Agree.seen (h : Agree period m m') (hlimit : period ≤ limit) (hlimit' : period ≤ limit')
    (price : Decimal) : Agree period (remember limit m price) (remember limit' m' price) where
  previous := h.previous
  history := by
    show (keepLast limit (m.history ++ [price.toFloat])).rtake period =
      (keepLast limit' (m'.history ++ [price.toFloat])).rtake period
    rw [rtake_keepLast hlimit, rtake_keepLast hlimit', ← rtake_rtake_append, h.history,
      rtake_rtake_append]

/-- Where there are enough prices, nothing but the newest value of the indicator counts. -/
theorem technicalValue_congr (id : String) {xs ys : List Float}
    (hx : indicator.requiredHistory ≤ xs.length) (hy : indicator.requiredHistory ≤ ys.length)
    (hlast : (indicator.calculate xs).map List.getLast? =
      (indicator.calculate ys).map List.getLast?) :
    technicalValue id indicator xs = technicalValue id indicator ys := by
  rw [technicalValue, technicalValue, if_neg (Nat.not_lt.2 hx), if_neg (Nat.not_lt.2 hy)]
  cases hxs : indicator.calculate xs with
  | error =>
    cases hys : indicator.calculate ys with
    | error => rfl
    | ok => simp [hxs, hys, Except.map] at hlast
  | ok values =>
    cases hys : indicator.calculate ys with
    | error => simp [hxs, hys, Except.map] at hlast
    | ok more =>
      have hsame : values.getLast? = more.getLast? := by
        simpa [hxs, hys, Except.map] using hlast
      simp only [hsame]

section Windowed

variable (hindicator : IsWindowed period indicator)

include hindicator

/-- What looks at a window needs as many prices as fit in it. -/
theorem requiredHistory_of_isWindowed : indicator.requiredHistory = period := by
  cases hindicator <;> rfl

/-- The newest value over all prices is that over the prices of the newest period. Whether there are
too few prices can be told from these as well. -/
theorem technicalValue_rtake (id : String) (history : List Float) :
    technicalValue id indicator (history.rtake period) = technicalValue id indicator history := by
  by_cases hlt : history.length < period
  · rw [rtake_of_length_le (Nat.le_of_lt hlt)]
  · have hle : period ≤ history.length := Nat.not_lt.1 hlt
    have hkept : period ≤ (history.rtake period).length := by
      rw [length_rtake, Nat.min_eq_right hle]
    cases hcheck : indicator.check with
    | error cause => rw [technicalValue, technicalValue, hcheck]
    | ok =>
      -- older values are missing, but not the newest one
      have hlast : (indicator.calculate (history.rtake period)).map List.getLast? =
          (indicator.calculate history).map List.getLast? :=
        Indicator.getLast?_calculate_drop hindicator hcheck hkept
      rw [← requiredHistory_of_isWindowed hindicator] at hle
      refine technicalValue_congr id ?_ hle hlast
      rwa [requiredHistory_of_isWindowed hindicator]

/-- Prices before the window do not matter. -/
theorem technicalValue_eq_of_rtake (id : String) {xs ys : List Float}
    (h : xs.rtake period = ys.rtake period) :
    technicalValue id indicator xs = technicalValue id indicator ys := by
  rw [← technicalValue_rtake hindicator id xs, h, technicalValue_rtake hindicator]

/-- Where there is no value yet, all prices are within the newest period. -/
theorem length_lt_of_technicalValue {id : String} {history : List Float}
    (h : technicalValue id indicator history = .ok none) : history.length < period := by
  cases hcheck : indicator.check with
  | error cause => simp [technicalValue, hcheck] at h
  | ok =>
    rw [technicalValue_eq_none_iff hcheck, requiredHistory_of_isWindowed hindicator] at h
    exact h

/-! ## Evaluations -/

variable (htechnical : c.observable = .technical indicator) (hlimit : period ≤ limit)
  (hlimit' : period ≤ limit')

include htechnical hlimit hlimit'

/-- Evaluations with memories that agree come to the same reading or the same failure, and leave
memories that agree. -/
theorem Agree.step (h : Agree period m m') (s : Snapshot) :
    (evaluate limit c m s).map Prod.fst = (evaluate limit' c m' s).map Prod.fst ∧
      Agree period (Verdict.memory m (evaluate limit c m s))
        (Verdict.memory m' (evaluate limit' c m' s)) := by
  have hseen : Agree period (remember limit m s.price) (remember limit' m' s.price) :=
    h.seen hlimit hlimit' s.price
  have hvalue := technicalValue_eq_of_rtake hindicator c.id hseen.history
  rw [evaluate_technical htechnical limit m s, evaluate_technical htechnical limit' m' s]
  cases hresult : technicalValue c.id indicator (remember limit' m' s.price).history with
  | error e =>
    rw [hvalue, hresult]
    exact ⟨rfl, h⟩
  | ok value =>
    rw [hvalue, hresult]
    rw [hresult] at hvalue
    cases value with
    | some value =>
      refine ⟨?_, rfl, hseen.history⟩
      show Except.ok (compareValue c m.previous value) = .ok (compareValue c m'.previous value)
      rw [h.previous]
    | none =>
      -- the newest period has room for all prices of both, so that they are the same
      have hhistory :
          (remember limit m s.price).history = (remember limit' m' s.price).history := by
        rw [← rtake_of_length_le (Nat.le_of_lt (length_lt_of_technicalValue hindicator hvalue)),
          hseen.history,
          rtake_of_length_le (Nat.le_of_lt (length_lt_of_technicalValue hindicator hresult))]
      refine ⟨?_, hseen⟩
      show Except.ok (warmingUp c (remember limit m s.price).history.length) = .ok _
      rw [hhistory]

/-- What evaluations in a row come to with memories that agree. -/
theorem Agree.verdicts_eq (h : Agree period m m') (ss : List Snapshot) :
    (verdicts limit c m ss).map (Except.map Prod.fst) =
      (verdicts limit' c m' ss).map (Except.map Prod.fst) := by
  induction ss generalizing m m' with
  | nil => rfl
  | cons s ss ih =>
    obtain ⟨hreading, hnext⟩ := h.step hindicator htechnical hlimit hlimit' s
    rw [verdicts, verdicts, List.map_cons, List.map_cons, hreading, ih hnext]

end Windowed

/-- Two evaluators of a condition on a simple moving average, or on the place between Bollinger
bands, whose histories are both limited to no less than its period: on any snapshots in a row they
come to the same readings and the same failures, each at its place. For the newest value of such an
indicator depends on nothing but the prices of the newest period, however many there are before. -/
theorem verdicts_eq_of_limits (hindicator : IsWindowed period indicator)
    (htechnical : c.observable = .technical indicator) (hlimit : period ≤ limit)
    (hlimit' : period ≤ limit') (ss : List Snapshot) :
    (verdicts limit c {} ss).map (Except.map Prod.fst) =
        (verdicts limit' c {} ss).map (Except.map Prod.fst) ∧
      ∀ (id : String) (xs ys : List Float), xs.rtake period = ys.rtake period →
        technicalValue id indicator xs = technicalValue id indicator ys :=
  ⟨Agree.verdicts_eq hindicator htechnical hlimit hlimit' ⟨rfl, rfl⟩ ss,
    fun id _ _ h => technicalValue_eq_of_rtake hindicator id h⟩

/-- With two prices kept, or five, an average of two prices crosses its threshold at the same
snapshot. -/
theorem verdicts_eq_of_limits_ofAverage :
    let paid (price : Int64) : Snapshot :=
      (Quote.ofPrice "BTCUSDT" (.ofInt64 price)).atTime ⟨0, 0⟩
    let c : Condition := { (default : Condition) with
      id := "c1", observable := .technical (.sma 2), operator := .crossesAbove,
      threshold := .ofInt64 110 }
    let ss := [paid 100, paid 100, paid 110, paid 130]
    let satisfied (limit : Nat) := (verdicts limit c {} ss).map fun v =>
      (v.map Prod.fst).toOption.map (·.satisfied)
    IsWindowed 2 (.sma 2) ∧ 2 ≤ 2 ∧ 2 ≤ 5 ∧
      (memoryAfter 2 c {} ss).history.length = 2 ∧ (memoryAfter 5 c {} ss).history.length = 4 ∧
      satisfied 2 = satisfied 5 ∧
      satisfied 5 = [some false, some false, some false, some true] := by
  intro paid c ss satisfied
  have hindicator : IsWindowed 2 (.sma 2) := .sma
  have hlimit : 2 ≤ 2 := by decide
  have hlimit' : 2 ≤ 5 := by decide
  have htechnical : c.observable = .technical (.sma 2) := rfl
  have heq := (verdicts_eq_of_limits hindicator htechnical hlimit hlimit' ss).1
  have hsatisfied : satisfied 2 = satisfied 5 := by
    have hmap := congrArg (List.map fun r => r.toOption.map (·.satisfied)) heq
    rw [List.map_map, List.map_map] at hmap
    exact hmap
  refine ⟨hindicator, hlimit, hlimit', ?_, ?_, hsatisfied, ?_⟩
  · decide +kernel
  · decide +kernel
  · decide +kernel

end MarketAlerts.Evaluation
