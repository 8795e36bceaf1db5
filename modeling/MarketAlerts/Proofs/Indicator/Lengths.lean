import MarketAlerts.Indicator.Series
import MarketAlerts.Proofs.Except

/-!
# How many values an indicator has

An indicator has one value for each price from some price on. Which one that is differs from
indicator to indicator, but where an indicator has values at all, it has at least one.

- `length_windows`, `length_deltas`, `length_exponentialFrom`, `length_strengthsFrom`: the lengths
  of the parts;
- `length_simpleAverages`, `length_exponentialAverages`, `length_strengths`, `length_macdHistogram`,
  `length_positions`: the lengths of the results;
- `pos_of_checkPeriod`, `of_check_macd`, `pos_of_check_bollinger`: what parameters that make sense
  are;
- `ne_nil_of_calculate`: no result is empty.
-/

namespace MarketAlerts.Indicator

/-! ## Parts -/

/-- There is one window for each element from the first that has enough before it. -/
theorem length_windows {α : Type} {n : Nat} (hn : 0 < n) (xs : List α) :
    (windows n xs).length = xs.length + 1 - n := by
  induction xs with
  | nil =>
    rw [windows, List.length_nil, List.length_nil]
    omega
  | cons x xs ih =>
    rw [windows, List.length_cons]
    split
    next h =>
      rw [List.length_cons, ih]
      omega
    next h =>
      rw [List.length_nil]
      omega

/-- Each further price gives one average. -/
theorem length_exponentialFrom (k average : Float) (prices : List Float) :
    (exponentialFrom k average prices).length = prices.length := by
  induction prices generalizing average with
  | nil => rfl
  | cons price prices ih => exact congrArg (· + 1) (ih _)

/-- There is one change fewer than prices. -/
theorem length_deltas (prices : List Float) : (deltas prices).length = prices.length - 1 := by
  induction prices with
  | nil => rfl
  | cons older prices ih =>
    cases prices with
    | nil => rfl
    | cons newer rest => exact congrArg (· + 1) ih

/-- Each further change gives one strength. -/
theorem length_strengthsFrom (period gain loss : Float) (ds : List Float) :
    (strengthsFrom period gain loss ds).length = ds.length := by
  induction ds generalizing gain loss with
  | nil => rfl
  | cons d ds ih => exact congrArg (· + 1) (ih _ _)

/-- Where the prices suffice, there are as many as required. -/
theorem le_length_of_checkLength {required : Nat} {prices : List Float}
    (h : checkLength required prices = .ok ()) : required ≤ prices.length := by
  unfold checkLength at h
  split at h
  next => cases h
  next hlength => exact Nat.le_of_not_lt hlength

/-! ## Results -/

section Results

variable {period fast slow signal : Nat} {multiplier : Float} {prices values : List Float}

/-- There is an average for each window of prices. -/
theorem length_simpleAverages (hperiod : 0 < period)
    (h : simpleAverages period prices = .ok values) :
    period ≤ prices.length ∧ values.length = prices.length + 1 - period := by
  obtain ⟨_, hcheck, hvalues⟩ := exists_of_bind_eq_ok h
  cases hvalues
  exact ⟨le_length_of_checkLength hcheck, by rw [List.length_map, length_windows hperiod]⟩

/-- There are as many exponential averages as simple ones. -/
theorem length_exponentialAverages (h : exponentialAverages period prices = .ok values) :
    period ≤ prices.length ∧ values.length = prices.length + 1 - period := by
  obtain ⟨_, hcheck, hvalues⟩ := exists_of_bind_eq_ok h
  cases hvalues
  have hle := le_length_of_checkLength hcheck
  refine ⟨hle, ?_⟩
  rw [List.length_cons, length_exponentialFrom, List.length_drop]
  omega

/-- There is one strength index for each difference from the last one of the first period on. -/
theorem length_strengths (h : strengths period prices = .ok values) :
    values.length = prices.length - 1 - period + 1 := by
  obtain ⟨_, -, hvalues⟩ := exists_of_bind_eq_ok h
  cases hvalues
  rw [List.length_cons, length_strengthsFrom, List.length_drop, length_deltas]

/-- The line begins where the slow averages do. -/
theorem length_macdLine (hfast : fast ≤ slow) (h : macdLine fast slow prices = .ok values) :
    slow ≤ prices.length ∧ values.length = prices.length + 1 - slow := by
  obtain ⟨fasts, hfasts, h⟩ := exists_of_bind_eq_ok h
  obtain ⟨slows, hslows, hvalues⟩ := exists_of_bind_eq_ok h
  cases hvalues
  obtain ⟨-, hfastsLength⟩ := length_exponentialAverages hfasts
  obtain ⟨hle, hslowsLength⟩ := length_exponentialAverages hslows
  refine ⟨hle, ?_⟩
  -- the fast averages begin earlier, and those without a slow one are dropped
  rw [List.length_zipWith, List.length_drop, hfastsLength, hslowsLength]
  omega

/-- The histogram is shorter than the line by what the signal needs. -/
theorem length_macdHistogram (hfast : fast ≤ slow) (hsignal : 0 < signal)
    (h : macdHistogram fast slow signal prices = .ok values) :
    slow + signal ≤ prices.length + 1 ∧ values.length = prices.length + 2 - (slow + signal) := by
  obtain ⟨_, -, h⟩ := exists_of_bind_eq_ok h
  obtain ⟨line, hline, h⟩ := exists_of_bind_eq_ok h
  obtain ⟨signals, hsignals, hvalues⟩ := exists_of_bind_eq_ok h
  cases hvalues
  obtain ⟨hslow, hlineLength⟩ := length_macdLine hfast hline
  obtain ⟨hle, hsignalsLength⟩ := length_exponentialAverages hsignals
  rw [List.length_zipWith, List.length_drop, hsignalsLength]
  omega

/-- There is a position for each window of prices. -/
theorem length_positions (hperiod : 0 < period)
    (h : positions period multiplier prices = .ok values) :
    period ≤ prices.length ∧ values.length = prices.length + 1 - period := by
  obtain ⟨bs, hbands, hvalues⟩ := exists_of_bind_eq_ok h
  cases hvalues
  obtain ⟨middles, hmiddles, hbs⟩ := exists_of_bind_eq_ok hbands
  cases hbs
  obtain ⟨hle, hmiddlesLength⟩ := length_simpleAverages hperiod hmiddles
  refine ⟨hle, ?_⟩
  -- windows, their averages and the prices at their ends are as many
  rw [List.length_zipWith, List.length_zipWith, length_windows hperiod, hmiddlesLength,
    List.length_drop]
  omega

end Results

/-! ## Every indicator -/

/-- A period that passes is not zero. -/
theorem pos_of_checkPeriod {period : Nat} (h : checkPeriod period = .ok ()) : 0 < period := by
  unfold checkPeriod at h
  split at h
  next => cases h
  next hzero => exact Nat.pos_of_ne_zero hzero

/-- Periods of a divergence that pass are in order, and that of its signal is not zero. -/
theorem of_check_macd {fast slow signal : Nat} (h : (macd fast slow signal).check = .ok ()) :
    fast < slow ∧ 0 < signal := by
  rw [check] at h
  split at h
  next => cases h
  next hzero =>
    split at h
    next => cases h
    next => omega

/-- The period of bands that pass is not zero. -/
theorem pos_of_check_bollinger {period : Nat} {multiplier : Float}
    (h : (bollinger period multiplier).check = .ok ()) : 0 < period := by
  rw [check] at h
  split at h
  next => cases h
  next => exact pos_of_checkPeriod h

/-- An indicator whose parameters make sense has at least one value if it has values at all. -/
theorem ne_nil_of_calculate {i : Indicator} (hcheck : i.check = .ok ()) {prices values : List Float}
    (h : i.calculate prices = .ok values) : values ≠ [] := by
  refine List.ne_nil_of_length_pos ?_
  cases i with
  | rsi period =>
    rw [length_strengths h]
    exact Nat.succ_pos _
  | sma period =>
    obtain ⟨hle, hlength⟩ := length_simpleAverages (pos_of_checkPeriod hcheck) h
    omega
  | ema period =>
    obtain ⟨hle, hlength⟩ := length_exponentialAverages h
    omega
  | macd fast slow signal =>
    obtain ⟨hfast, hsignal⟩ := of_check_macd hcheck
    obtain ⟨hle, hlength⟩ := length_macdHistogram (Nat.le_of_lt hfast) hsignal h
    omega
  | bollinger period multiplier =>
    obtain ⟨hle, hlength⟩ := length_positions (pos_of_check_bollinger hcheck) h
    omega

end MarketAlerts.Indicator
