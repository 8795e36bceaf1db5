import MarketAlerts.Proofs.Configuration.WarmUp
import MarketAlerts.Proofs.Indicator.Ranges

/-!
# Indicators of conditions never fail

A condition is read only if the parameters of its indicator make sense. Then the indicator has
values for as many prices as it requires, and with fewer it is not asked for any.

- `technicalValue_ne_indicator`: an indicator whose parameters make sense does not fail;
- `evaluate_ne_indicator`: no evaluation of a condition that was read fails at its indicator;
- `calculate_in_range`: both the computations and the evaluations.
-/

namespace MarketAlerts

namespace Evaluation

variable {limit : Nat} {c : Condition} {m : Memory} {s : Snapshot} {indicator : Indicator}

/-- A history of fewer prices than two to the power 63 is shorter than what can be asked for. -/
theorem twoTo_63_lt_maxHistory : twoTo 63 < Indicator.maxHistory := by
  decide

/-- An indicator with periods in range does not fail over a history that is short enough. -/
theorem technicalValue_ne_indicator (hcheck : indicator.check = .ok ()) {history : List Float}
    (hhistory : history.length < Indicator.maxHistory) (id id' : String) :
    technicalValue id indicator history ≠ .error (.indicator id') := by
  unfold technicalValue
  rw [hcheck]
  dsimp only
  split
  next => nofun
  next hge =>
    obtain ⟨values, -, hvalues, -⟩ :=
      Indicator.computes_calculate hcheck (Nat.le_of_not_lt hge) hhistory
    rw [hvalues]
    dsimp only
    cases values.getLast? with
    | none => nofun
    | some latest =>
      dsimp only
      cases Decimal.ofFloat? latest <;> nofun

/-- A metric of the market never fails because of an indicator. -/
theorem marketValue_ne_indicator (metric : MarketMetric) (q : Quote) (id : String) :
    marketValue metric q ≠ .error (.indicator id) := by
  cases metric with
  | rangePercent =>
    rw [marketValue, rangePercent]
    repeat' split
    all_goals nofun
  | _ => nofun

/-- No evaluation of a condition that was read fails at its indicator, in any state. -/
theorem evaluate_ne_indicator {freshId : String} {e : Condition.Entry}
    (hparse : Condition.parseEntry freshId e = .ok c) (hm : m.history.length < twoTo 63)
    (limit : Nat) (s : Snapshot) (id : String) :
    evaluate limit c m s ≠ .error (.indicator id) := by
  cases hobservable : c.observable with
  -- a technical condition fails as its indicator does, whose periods were checked
  | technical indicator =>
    have hcheck := Condition.check_of_parseEntry hparse hobservable
    have hhistory : (remember limit m s.price).history.length < Indicator.maxHistory := by
      have := twoTo_63_lt_maxHistory
      rw [length_history_remember]
      omega
    have hvalue := technicalValue_ne_indicator hcheck hhistory c.id id
    rw [evaluate_technical hobservable]
    cases hresult : technicalValue c.id indicator (remember limit m s.price).history with
    | error cause => exact fun h => hvalue (hresult.trans (by cases h; rfl))
    | ok value => rintro ⟨⟩
  -- other observables have no indicator
  | market metric =>
    have hvalue := marketValue_ne_indicator metric s.toQuote id
    rw [evaluate, observe, hobservable]
    dsimp only
    cases hresult : marketValue metric s.toQuote with
    | error cause => exact fun h => hvalue (hresult.trans (by cases h; rfl))
    | ok value => rintro ⟨⟩
  | price | volume | time =>
    rw [evaluate, observe, hobservable]
    rintro ⟨⟩

end Evaluation

namespace Indicator

/-- What the computations of indicators come to.

- For every indicator whose parameters make sense and every series of prices, the computation that
  breaks off out of range comes to what the other one comes to. It asks for as many prices as are
  said to be required. It is refused if there are fewer; otherwise it has values, at least one.
- No evaluation of a condition that was read fails at its indicator, whatever the condition
  remembers.
-/
theorem calculate_in_range :
    (∀ (i : Indicator) (prices : List Float), i.check = .ok () → prices.length < twoTo 63 →
      Ranged.calculate i prices = (i.calculate prices).mapError .refused ∧
      Ranged.lookback i = i.requiredHistory ∧
      (i.calculate prices = .error (.insufficientData i.requiredHistory prices.length) ↔
        prices.length < i.requiredHistory) ∧
      (i.requiredHistory ≤ prices.length → ∃ values, i.calculate prices = .ok values ∧
        values ≠ [] ∧ values.length = i.valueCount prices.length)) ∧
    ∀ (freshId : String) (e : Condition.Entry) (c : Condition) (limit : Nat) (m : Memory)
      (s : Snapshot) (id : String), Condition.parseEntry freshId e = .ok c →
      m.history.length < twoTo 63 → evaluate limit c m s ≠ .error (.indicator id) := by
  refine ⟨fun i prices hcheck hprices => ?_,
    fun _ _ _ limit _ s id hparse hm => Evaluation.evaluate_ne_indicator hparse hm limit s id⟩
  have hmax : prices.length < maxHistory := hprices.trans Evaluation.twoTo_63_lt_maxHistory
  -- too few prices are refused before anything is taken or subtracted
  rcases Nat.lt_or_ge prices.length i.requiredHistory with hlt | hle
  · obtain ⟨hranged, hplain⟩ := calculate_of_lt hlt
    refine ⟨?_, lookback_eq_requiredHistory i, iff_of_true hplain hlt, fun hle => ?_⟩
    · rw [hranged, hplain, mapError_error]
    · omega
  · obtain ⟨values, hranged, hplain, hlength⟩ := computes_calculate hcheck hle hmax
    refine ⟨?_, lookback_eq_requiredHistory i, iff_of_false ?_ (Nat.not_lt.2 hle), fun _ => ?_⟩
    · rw [hranged, hplain, mapError_ok]
    · rw [hplain]
      nofun
    · exact ⟨values, hplain, ne_nil_of_calculate hcheck hplain, hlength⟩

/-- Three prices have a histogram of two values, and are too few for an average of four. An average
of two prices that was written down does not fail at a second price. -/
theorem calculate_in_range_ofThree :
    let prices : List Float := [1, 2, 3]
    let c := Configuration.averageAbove 2
    Ranged.calculate (macd 1 2 1) prices = ((macd 1 2 1).calculate prices).mapError .refused ∧
      (∃ values, (macd 1 2 1).calculate prices = .ok values ∧ values.length = 2) ∧
      (sma 4).calculate prices = .error (.insufficientData 4 3) ∧
      Condition.parseEntry "" (Configuration.averageEntry 2) = .ok c ∧
      evaluate 2 c { history := [1] } default ≠ .error (.indicator "c1") := by
  intro prices c
  have hprices : prices.length < twoTo 63 := by decide
  have hparse : Condition.parseEntry "" (Configuration.averageEntry 2) = .ok c := rfl
  obtain ⟨hcomputes, hevaluates⟩ := calculate_in_range
  obtain ⟨hranged, -, -, henough⟩ := hcomputes (macd 1 2 1) prices rfl hprices
  obtain ⟨-, -, hfewer, -⟩ := hcomputes (sma 4) prices rfl hprices
  obtain ⟨values, hvalues, -, hlength⟩ := henough (by decide)
  exact ⟨hranged, ⟨values, hvalues, hlength⟩, hfewer.2 (by decide), hparse,
    hevaluates "" _ c 2 { history := [1] } default "c1" hparse (by decide)⟩

end Indicator

end MarketAlerts
