import MarketAlerts.Proofs.Indicator.Lengths

/-!
# Where the computations of indicators reach

A computation of an indicator cuts series in front of an element or behind one, looks at windows of
a length and subtracts one count from another. `Ranged` has these computations with steps that break
off where they would reach out of range. They never do.

## Main definitions

- `Fault`, `Ranged.front`, `Ranged.back`, `Ranged.less`, `Ranged.windows`, `Ranged.element`: steps
  that break off out of range;
- `Ranged.lookback`, `Ranged.calculate`: the computations from such steps, and how many prices each
  of them asks for;
- `valueCount`: how many values there are;
- `Computes`: a computation, with ranges or without, has the same values, and so many of them.

## Main results

- `lookback_eq_requiredHistory`: a computation asks for the prices that are said to be required;
- `calculate_of_lt`: with fewer prices it is refused;
- `computes_calculate`: with as many or more it has values.
-/

namespace MarketAlerts.Indicator

/-- Why a computation that minds ranges has no values. -/
inductive Fault where
  /-- It is refused. -/
  | refused (cause : Error)
  /-- It would reach out of range. -/
  | outOfRange

namespace Ranged

/-! ## Steps -/

section Steps

variable {α : Type}

/-- The first `n` elements, which must be there. -/
def front (n : Nat) (xs : List α) : Except Fault (List α) :=
  if n ≤ xs.length then .ok (xs.take n) else .error .outOfRange

/-- The elements after the first `n`, which must be there. -/
def back (n : Nat) (xs : List α) : Except Fault (List α) :=
  if n ≤ xs.length then .ok (xs.drop n) else .error .outOfRange

/-- A count without another one, which must not be larger. -/
def less (a b : Nat) : Except Fault Nat := if b ≤ a then .ok (a - b) else .error .outOfRange

/-- All runs of `n` neighbours, at least one. -/
def windows (n : Nat) (xs : List α) : Except Fault (List (List α)) :=
  if n = 0 then .error .outOfRange else .ok (Indicator.windows n xs)

/-- The element at a position, which must be there. -/
def element (xs : List α) (i : Nat) : Except Fault α :=
  match xs[i]? with
  | some x => .ok x
  | none => .error .outOfRange

/-- A front that is there can be taken. -/
theorem front_of_le {n : Nat} {xs : List α} (h : n ≤ xs.length) : front n xs = .ok (xs.take n) :=
  if_pos h

theorem back_of_le {n : Nat} {xs : List α} (h : n ≤ xs.length) : back n xs = .ok (xs.drop n) :=
  if_pos h

/-- A number that is not greater can be taken away. -/
theorem less_of_le {a b : Nat} (h : b ≤ a) : less a b = .ok (a - b) :=
  if_pos h

/-- Windows that are not empty can be taken. -/
theorem windows_of_pos {n : Nat} (h : 0 < n) (xs : List α) :
    windows n xs = .ok (Indicator.windows n xs) :=
  if_neg (Nat.ne_of_gt h)

/-- Needs at least `required` prices. -/
def need (required : Nat) (prices : List Float) : Except Fault Unit :=
  (checkLength required prices).mapError .refused

end Steps

/-! ## Computations -/

/-- The sum of two counts, or the largest count if it is no count. -/
def saturatingAdd (a b : Nat) : Nat := if a + b ≤ maxHistory then a + b else maxHistory

/-- How many prices a computation asks for. -/
def lookback : Indicator → Nat
  | rsi period => saturatingAdd period 1
  | sma period => period
  | ema period => period
  | macd _ slow signal => saturatingAdd slow signal
  | bollinger period _ => period

/-- The simple moving average. -/
def simpleAverages (period : Nat) (prices : List Float) : Except Fault (List Float) := do
  need (lookback (sma period)) prices
  return (← windows period prices).map (mean period)

/-- The exponential moving average. -/
def exponentialAverages (period : Nat) (prices : List Float) : Except Fault (List Float) := do
  need (lookback (ema period)) prices
  let k := 2 / (Float.ofNat period + 1)
  let start := mean period (← front period prices)
  -- Room is set aside for the averages.
  let _ ← less prices.length period
  return start :: exponentialFrom k start (← back period prices)

/-- The differences between neighbours. -/
def deltas (prices : List Float) : Except Fault (List Float) := do
  (← windows 2 prices).mapM fun w => return (← element w 1) - (← element w 0)

/-- The relative strength index. -/
def strengths (period : Nat) (prices : List Float) : Except Fault (List Float) := do
  need (lookback (rsi period)) prices
  let ds ← deltas prices
  let seed ← front period ds
  let rest ← back period ds
  let gain := mean period (seed.map positivePart)
  let loss := mean period (seed.map fun d => positivePart (-d))
  return strength gain loss :: strengthsFrom (Float.ofNat period) gain loss rest

/-- The difference of a fast and a slow exponential average. -/
def macdLine (fast slow : Nat) (prices : List Float) : Except Fault (List Float) := do
  let fastAverages ← exponentialAverages fast prices
  let slowAverages ← exponentialAverages slow prices
  let offset ← less slow fast
  return List.zipWith (· - ·) (← back offset fastAverages) slowAverages

/-- The difference of the line above and its own exponential average. -/
def macdHistogram (fast slow signal : Nat) (prices : List Float) : Except Fault (List Float) := do
  need (lookback (macd fast slow signal)) prices
  let line ← macdLine fast slow prices
  let signals ← exponentialAverages signal line
  let offset ← less signal 1
  return List.zipWith (· - ·) (← back offset line) signals

/-- The Bollinger bands of every window. -/
def bands (period : Nat) (multiplier : Float) (prices : List Float) : Except Fault (List Band) := do
  let middles ← simpleAverages period prices
  return List.zipWith (fun window middle => Band.around period multiplier middle window)
    (← windows period prices) middles

/-- The place of every price between its bands. -/
def positions (period : Nat) (multiplier : Float) (prices : List Float) :
    Except Fault (List Float) := do
  let bs ← bands period multiplier prices
  let offset ← less period 1
  return List.zipWith Band.position bs (← back offset prices)

/-- The values of an indicator. -/
def calculate : Indicator → List Float → Except Fault (List Float)
  | rsi period => strengths period
  | sma period => simpleAverages period
  | ema period => exponentialAverages period
  | macd fast slow signal => macdHistogram fast slow signal
  | bollinger period multiplier => positions period multiplier

end Ranged

open Ranged (front_of_le back_of_le less_of_le windows_of_pos need lookback saturatingAdd)

/-- How many values an indicator has over `n` prices. -/
def valueCount (n : Nat) : Indicator → Nat
  | rsi period => n - period
  | sma period => n - period + 1
  | ema period => n - period + 1
  | macd _ slow signal => n - slow - signal + 2
  | bollinger period _ => n - period + 1

/-- A computation has values, and so many of them, whether it minds ranges or not. -/
def Computes {α : Type} (ranged : Except Fault (List α)) (plain : Except Error (List α))
    (count : Nat) : Prop :=
  ∃ values, ranged = .ok values ∧ plain = .ok values ∧ values.length = count

/-! ## What is asked for -/

section Lookback

variable {required : Nat} {prices : List Float}

/-- A sum that is cut off is the least of itself and the largest number. -/
theorem saturatingAdd_eq_min (a b : Nat) : saturatingAdd a b = min (a + b) maxHistory := by
  unfold saturatingAdd
  split <;> omega

/-- A computation asks for the prices that are said to be required. -/
theorem lookback_eq_requiredHistory (i : Indicator) : lookback i = i.requiredHistory := by
  cases i with
  | rsi | macd => exact saturatingAdd_eq_min _ _
  | sma | ema | bollinger => rfl

/-- Too few prices are refused, with both numbers. -/
theorem checkLength_of_lt (h : prices.length < required) :
    checkLength required prices = .error (.insufficientData required prices.length) :=
  if_pos h

/-- Enough prices pass. -/
theorem checkLength_of_le (h : required ≤ prices.length) : checkLength required prices = .ok () :=
  if_neg (Nat.not_lt.2 h)

/-- Too few prices are refused, whatever the ranges. -/
theorem need_of_lt (h : prices.length < required) :
    need required prices = .error (.refused (.insufficientData required prices.length)) := by
  rw [need, checkLength_of_lt h]
  rfl

/-- Enough prices pass, whatever the ranges. -/
theorem need_of_le (h : required ≤ prices.length) : need required prices = .ok () := by
  rw [need, checkLength_of_le h]
  rfl

/-- With fewer prices a computation is refused. -/
theorem calculate_of_lt {i : Indicator} (h : prices.length < i.requiredHistory) :
    Ranged.calculate i prices =
        .error (.refused (.insufficientData i.requiredHistory prices.length)) ∧
      i.calculate prices = .error (.insufficientData i.requiredHistory prices.length) := by
  have hneed : need (lookback i) prices =
      .error (.refused (.insufficientData i.requiredHistory prices.length)) := by
    rw [lookback_eq_requiredHistory, need_of_lt h]
  have hcheck := checkLength_of_lt h
  cases i with
  | rsi period =>
    rw [Ranged.calculate, Ranged.strengths, hneed, calculate, strengths, hcheck]
    exact ⟨rfl, rfl⟩
  | macd fast slow signal =>
    rw [Ranged.calculate, Ranged.macdHistogram, hneed, calculate, macdHistogram, hcheck]
    exact ⟨rfl, rfl⟩
  -- the others ask for their period
  | sma period =>
    rw [requiredHistory] at hcheck
    rw [Ranged.calculate, Ranged.simpleAverages, hneed, calculate, simpleAverages, hcheck]
    exact ⟨rfl, rfl⟩
  | ema period =>
    rw [requiredHistory] at hcheck
    rw [Ranged.calculate, Ranged.exponentialAverages, hneed, calculate, exponentialAverages, hcheck]
    exact ⟨rfl, rfl⟩
  | bollinger period multiplier =>
    rw [requiredHistory] at hcheck
    rw [lookback] at hneed
    rw [Ranged.calculate, Ranged.positions, Ranged.bands, Ranged.simpleAverages, lookback, hneed,
      calculate, positions, bands, simpleAverages, hcheck]
    exact ⟨rfl, rfl⟩

end Lookback

/-! ## Values -/

section Values

variable {period fast slow signal : Nat} {multiplier : Float} {prices : List Float}

/-- With enough prices the simple averages stay in range. -/
theorem computes_simpleAverages (hperiod : 0 < period) (h : period ≤ prices.length) :
    Computes (Ranged.simpleAverages period prices) (simpleAverages period prices)
      (prices.length + 1 - period) := by
  have hplain : simpleAverages period prices = .ok ((windows period prices).map (mean period)) := by
    rw [simpleAverages, checkLength_of_le h]
    rfl
  refine ⟨_, ?_, hplain, (length_simpleAverages hperiod hplain).2⟩
  simp only [Ranged.simpleAverages, lookback, need_of_le h, windows_of_pos hperiod, ok_bind]
  rfl

/-- With enough prices the exponential averages stay in range. -/
theorem computes_exponentialAverages (h : period ≤ prices.length) :
    Computes (Ranged.exponentialAverages period prices) (exponentialAverages period prices)
      (prices.length + 1 - period) := by
  obtain ⟨values, hplain⟩ : ∃ values, exponentialAverages period prices = .ok values := by
    rw [exponentialAverages, checkLength_of_le h]
    exact ⟨_, rfl⟩
  refine ⟨values, ?_, hplain, (length_exponentialAverages hplain).2⟩
  rw [exponentialAverages, checkLength_of_le h] at hplain
  cases hplain
  simp only [Ranged.exponentialAverages, lookback, need_of_le h, front_of_le h, less_of_le h,
    back_of_le h, ok_bind]
  rfl

/-- A window of two has both elements of a difference. -/
theorem deltas_eq (prices : List Float) : Ranged.deltas prices = .ok (deltas prices) := by
  induction prices with
  | nil => rfl
  | cons older prices ih =>
    cases prices with
    | nil => rfl
    | cons newer rest =>
      have hwindows : windows 2 (older :: newer :: rest) =
          [older, newer] :: windows 2 (newer :: rest) := if_pos (Nat.le_add_left 2 rest.length)
      rw [Ranged.deltas, windows_of_pos Nat.two_pos, ok_bind] at ih ⊢
      rw [hwindows, List.mapM_cons, ih]
      rfl

/-- There is a price more than in a period, and so there are differences enough. -/
theorem computes_strengths (h : (rsi period).requiredHistory ≤ prices.length)
    (hprices : prices.length < maxHistory) :
    Computes (Ranged.strengths period prices) (strengths period prices)
      (prices.length - period) := by
  have hlt : period < prices.length := by
    rw [requiredHistory] at h
    omega
  have hdeltas : period ≤ (deltas prices).length := by
    rw [length_deltas]
    omega
  obtain ⟨values, hplain⟩ : ∃ values, strengths period prices = .ok values := by
    rw [strengths, checkLength_of_le h]
    exact ⟨_, rfl⟩
  have hlength : values.length = prices.length - period := by
    rw [length_strengths hplain]
    omega
  refine ⟨values, ?_, hplain, hlength⟩
  rw [strengths, checkLength_of_le h] at hplain
  cases hplain
  -- with enough prices every slice and every subtraction is in its range
  simp only [Ranged.strengths, lookback_eq_requiredHistory, need_of_le h, deltas_eq,
    front_of_le hdeltas, back_of_le hdeltas, ok_bind]
  rfl

/-- With enough prices the line stays in range. -/
theorem computes_macdLine (hfast : fast ≤ slow) (h : slow ≤ prices.length) :
    Computes (Ranged.macdLine fast slow prices) (macdLine fast slow prices)
      (prices.length + 1 - slow) := by
  obtain ⟨fasts, hrangedFasts, hfasts, hfastsLength⟩ :=
    computes_exponentialAverages (Nat.le_trans hfast h)
  obtain ⟨slows, hrangedSlows, hslows, -⟩ := computes_exponentialAverages h
  have hplain : macdLine fast slow prices =
      .ok (List.zipWith (· - ·) (fasts.drop (slow - fast)) slows) := by
    rw [macdLine, hfasts, hslows]
    rfl
  refine ⟨_, ?_, hplain, (length_macdLine hfast hplain).2⟩
  -- the slow averages begin later, but not after the last fast one
  have hoffset : slow - fast ≤ fasts.length := by omega
  simp only [Ranged.macdLine, hrangedFasts, hrangedSlows, less_of_le hfast, back_of_le hoffset,
    ok_bind]
  rfl

/-- With the prices that are required the histogram stays in range. -/
theorem computes_macdHistogram (hfast : fast ≤ slow) (hsignal : 0 < signal)
    (h : (macd fast slow signal).requiredHistory ≤ prices.length)
    (hprices : prices.length < maxHistory) :
    Computes (Ranged.macdHistogram fast slow signal prices) (macdHistogram fast slow signal prices)
      (prices.length - slow - signal + 2) := by
  have hle : slow + signal ≤ prices.length := by
    rw [requiredHistory] at h
    omega
  have hslow : slow ≤ prices.length := by omega
  obtain ⟨line, hrangedLine, hline, hlineLength⟩ := computes_macdLine hfast hslow
  -- the line is as long as its own average needs, and one longer
  have hleLine : signal ≤ line.length := by omega
  obtain ⟨signals, hrangedSignals, hsignals, -⟩ := computes_exponentialAverages hleLine
  have hplain : macdHistogram fast slow signal prices =
      .ok (List.zipWith (· - ·) (line.drop (signal - 1)) signals) := by
    rw [macdHistogram, checkLength_of_le h, ok_bind, hline, ok_bind, hsignals]
    rfl
  refine ⟨_, ?_, hplain, ?_⟩
  · have hoffset : signal - 1 ≤ line.length := by omega
    simp only [Ranged.macdHistogram, lookback_eq_requiredHistory, need_of_le h, hrangedLine,
      hrangedSignals, less_of_le (show 1 ≤ signal from hsignal), back_of_le hoffset, ok_bind]
    rfl
  · rw [(length_macdHistogram hfast hsignal hplain).2]
    omega

/-- With enough prices the positions stay in range. -/
theorem computes_positions (hperiod : 0 < period) (h : period ≤ prices.length) :
    Computes (Ranged.positions period multiplier prices) (positions period multiplier prices)
      (prices.length + 1 - period) := by
  obtain ⟨middles, hrangedMiddles, hmiddles, -⟩ := computes_simpleAverages hperiod h
  obtain ⟨values, hplain⟩ : ∃ values, positions period multiplier prices = .ok values := by
    rw [positions, bands, hmiddles]
    exact ⟨_, rfl⟩
  refine ⟨values, ?_, hplain, (length_positions hperiod hplain).2⟩
  rw [positions, bands, hmiddles] at hplain
  cases hplain
  have hoffset : period - 1 ≤ prices.length := by omega
  simp only [Ranged.positions, Ranged.bands, hrangedMiddles, windows_of_pos hperiod,
    less_of_le (show 1 ≤ period from hperiod), back_of_le hoffset, ok_bind]
  rfl

/-- With as many prices as are required or more, every computation has values. -/
theorem computes_calculate {i : Indicator} (hcheck : i.check = .ok ())
    (h : i.requiredHistory ≤ prices.length) (hprices : prices.length < maxHistory) :
    Computes (Ranged.calculate i prices) (i.calculate prices) (i.valueCount prices.length) := by
  cases i with
  | rsi period => exact computes_strengths h hprices
  | sma period =>
    rw [requiredHistory] at h
    rw [valueCount, ← Nat.sub_add_comm h]
    exact computes_simpleAverages (pos_of_checkPeriod hcheck) h
  | ema period =>
    rw [requiredHistory] at h
    rw [valueCount, ← Nat.sub_add_comm h]
    exact computes_exponentialAverages h
  | macd fast slow signal =>
    obtain ⟨hfast, hsignal⟩ := of_check_macd hcheck
    exact computes_macdHistogram (Nat.le_of_lt hfast) hsignal h hprices
  | bollinger period multiplier =>
    rw [requiredHistory] at h
    rw [valueCount, ← Nat.sub_add_comm h]
    exact computes_positions (pos_of_check_bollinger hcheck) h

/-! ## How many prices are enough -/

/-- The histogram has a value already where it is refused for a single price. -/
theorem exists_histogram_of_lt (hfast : fast < slow) (hsignal : 0 < signal)
    (h : prices.length + 1 = slow + signal) :
    ∃ line signals, macdLine fast slow prices = .ok line ∧
      exponentialAverages signal line = .ok signals ∧
      (List.zipWith (· - ·) (line.drop (signal - 1)) signals).length = 1 := by
  have hslow : slow ≤ prices.length := by omega
  obtain ⟨line, -, hline, hlineLength⟩ := computes_macdLine (Nat.le_of_lt hfast) hslow
  have hleLine : signal ≤ line.length := by omega
  obtain ⟨signals, -, hsignals, hsignalsLength⟩ := computes_exponentialAverages hleLine
  refine ⟨line, signals, hline, hsignals, ?_⟩
  rw [List.length_zipWith, List.length_drop, hsignalsLength]
  omega

/-- How many values an indicator has. All but one have a value for the first price with which there
are as many as are required, and one for each price after that. Moving averages that converge and
diverge have a value more: they require a price more than they would need for one. -/
theorem length_calculate_iff {i : Indicator} (hcheck : i.check = .ok ())
    (h : i.requiredHistory ≤ prices.length) (hprices : prices.length < maxHistory) :
    ∃ values, i.calculate prices = .ok values ∧
      (values.length = prices.length - i.requiredHistory + 1 ↔
        ∀ fast slow signal, i ≠ .macd fast slow signal) ∧
      ∀ fast slow signal, i = .macd fast slow signal →
        values.length = prices.length - i.requiredHistory + 2 ∧
        ∀ fewer : List Float, fewer.length + 1 = i.requiredHistory →
          i.calculate fewer = .error (.insufficientData i.requiredHistory fewer.length) ∧
          ∃ line signals, macdLine fast slow fewer = .ok line ∧
            exponentialAverages signal line = .ok signals ∧
            (List.zipWith (· - ·) (line.drop (signal - 1)) signals).length = 1 := by
  obtain ⟨values, -, hvalues, hlength⟩ := computes_calculate hcheck h hprices
  refine ⟨values, hvalues, ?_⟩
  cases i with
  | macd fast slow signal =>
    -- no sum of periods is too large, since there are as many prices
    have hrequired : (macd fast slow signal).requiredHistory = slow + signal := by
      rw [requiredHistory] at h ⊢
      omega
    have hcount : values.length =
        prices.length - (macd fast slow signal).requiredHistory + 2 := by
      rw [hlength, valueCount, hrequired, Nat.sub_sub]
    refine ⟨iff_of_false (by omega) fun hne => hne _ _ _ rfl, ?_⟩
    rintro _ _ _ ⟨⟩
    refine ⟨hcount, fun fewer hfewer => ⟨(calculate_of_lt (by omega)).2, ?_⟩⟩
    obtain ⟨hfast, hsignal⟩ := of_check_macd hcheck
    exact exists_histogram_of_lt hfast hsignal (hfewer.trans hrequired)
  | rsi period =>
    refine ⟨iff_of_true ?_ (by rintro _ _ _ ⟨⟩), by rintro _ _ _ ⟨⟩⟩
    rw [valueCount] at hlength
    rw [requiredHistory] at h ⊢
    omega
  | sma | ema | bollinger =>
    exact ⟨iff_of_true hlength (by rintro _ _ _ ⟨⟩), by rintro _ _ _ ⟨⟩⟩

/-- Three prices have two averages of two prices, as they should, and two values of a histogram that
requires all of them. Two prices, which are refused, would have one. -/
theorem length_calculate_iff_ofThree :
    let prices : List Float := [1, 2, 3]
    (∃ averages, (sma 2).calculate prices = .ok averages ∧ averages.length = 3 - 2 + 1) ∧
      (macd 1 2 1).requiredHistory = 3 ∧
      (∃ values, (macd 1 2 1).calculate prices = .ok values ∧ values.length = 2) ∧
      ∃ line signals, macdLine 1 2 [1, 2] = .ok line ∧ exponentialAverages 1 line = .ok signals ∧
        (List.zipWith (· - ·) (line.drop 0) signals).length = 1 := by
  intro prices
  have hprices : prices.length < maxHistory := by decide
  have hrequired : (macd 1 2 1).requiredHistory = 3 := rfl
  obtain ⟨averages, haverages, hiff, -⟩ :=
    length_calculate_iff (i := sma 2) rfl (show 2 ≤ prices.length by decide) hprices
  obtain ⟨values, hvalues, -, hmacd⟩ :=
    length_calculate_iff (i := macd 1 2 1) rfl (show 3 ≤ prices.length by decide) hprices
  obtain ⟨hlength, hfewer⟩ := hmacd 1 2 1 rfl
  exact ⟨⟨averages, haverages, hiff.2 nofun⟩, hrequired, ⟨values, hvalues, hlength⟩,
    (hfewer [1, 2] rfl).2⟩

/-- As many prices as are required give two values of a histogram, not one. -/
theorem histogram_of_required_prices :
    let i : Indicator := .macd 1 2 1
    let prices : List Float := [1, 2, 3]
    i.check = .ok () ∧ prices.length = i.requiredHistory ∧
      ∃ values, i.calculate prices = .ok values ∧
        values.length ≠ prices.length - i.requiredHistory + 1 := by
  refine ⟨rfl, rfl, _, rfl, ?_⟩
  decide

end Values

end MarketAlerts.Indicator
