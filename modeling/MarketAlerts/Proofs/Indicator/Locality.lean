import Mathlib.Data.List.DropRight
import Mathlib.Data.List.Infix
import MarketAlerts.Proofs.Indicator.Ranges

/-!
# Which prices a value depends on

The value of an indicator at a price is computed from the prices up to that one, so that it stays
what it is when later prices arrive. A simple moving average and a place between Bollinger bands are
computed from the prices of a single period, so that prices before that period do not matter either.

## Main definitions

- `Extends`: two computations have values, and those of the first come first in the second;
- `IsWindowed`: the indicator looks at the prices of a single period.

## Main results

- `prefix_windows`, `prefix_exponentialFrom`, `prefix_deltas`, `prefix_strengthsFrom`: what the
  parts of a computation have over a series comes first in what they have over a longer one;
- `calculate_extends`: so do the values of every indicator, the line of moving averages and the
  bands;
- `calculate_drop`: without the first prices there are the same averages and places, but for the
  first ones;
- `getLast?_calculate_drop`: the newest of them stays what it is.
-/

namespace MarketAlerts.Indicator

/-- Two computations have values, and those of the first come first in the second. -/
def Extends {α : Type} (before after : Except Error (List α)) : Prop :=
  ∃ values more, before = .ok values ∧ after = .ok more ∧ values <+: more

/-- The indicator looks at the prices of a single period. -/
inductive IsWindowed (period : Nat) : Indicator → Prop
  /-- The simple moving average. -/
  | sma : IsWindowed period (.sma period)
  /-- The place between the Bollinger bands. -/
  | bollinger (multiplier : Float) : IsWindowed period (.bollinger period multiplier)

/-! ## Computations with enough prices -/

section Values

variable {period : Nat} {prices : List Float}

/-- With enough prices the simple averages are the means of the windows. -/
theorem simpleAverages_of_le (h : period ≤ prices.length) :
    simpleAverages period prices = .ok ((windows period prices).map (mean period)) := by
  rw [simpleAverages, checkLength_of_le h]
  rfl

/-- With enough prices the exponential averages begin with a mean and follow the prices. -/
theorem exponentialAverages_of_le (h : period ≤ prices.length) :
    let k := 2 / (Float.ofNat period + 1)
    let start := mean period (prices.take period)
    exponentialAverages period prices =
      .ok (start :: exponentialFrom k start (prices.drop period)) := by
  intro k start
  rw [exponentialAverages, checkLength_of_le h]
  rfl

/-- With enough prices the strengths begin with the means of the first changes and follow the
others. -/
theorem strengths_of_le (h : (rsi period).requiredHistory ≤ prices.length) :
    let seed := (deltas prices).take period
    let gain := mean period (seed.map positivePart)
    let loss := mean period (seed.map fun d => positivePart (-d))
    strengths period prices = .ok (strength gain loss ::
      strengthsFrom (Float.ofNat period) gain loss ((deltas prices).drop period)) := by
  intro seed gain loss
  rw [strengths, checkLength_of_le h]
  rfl

/-- With enough prices the bands lie around the means of the windows. -/
theorem bands_of_le (multiplier : Float) (h : period ≤ prices.length) :
    bands period multiplier prices = .ok (List.zipWith
      (fun window middle => Band.around period multiplier middle window)
      (windows period prices) ((windows period prices).map (mean period))) := by
  rw [bands, simpleAverages_of_le h]
  rfl

end Values

/-! ## Later prices -/

section Parts

variable {α β γ : Type}

/-- A window of neighbours does not reach into later elements. -/
theorem prefix_windows (n : Nat) {xs ys : List α} (h : xs <+: ys) :
    windows n xs <+: windows n ys := by
  obtain ⟨later, rfl⟩ := h
  induction xs with
  | nil => exact List.nil_prefix
  | cons x xs ih =>
    rw [List.cons_append, windows, windows]
    split
    next hn =>
      -- the first window is over before the later elements begin
      have hlonger : n ≤ (xs ++ later).length + 1 := by
        rw [List.length_append]
        omega
      rw [if_pos hlonger, ← List.cons_append, List.take_append_of_le_length hn]
      exact (List.prefix_cons_inj _).2 ih
    next => exact List.nil_prefix

/-- What begins two lists begins their combination. -/
theorem prefix_zipWith (f : α → β → γ) {xs xs' : List α} {ys ys' : List β} (hx : xs <+: xs')
    (hy : ys <+: ys') : List.zipWith f xs ys <+: List.zipWith f xs' ys' := by
  obtain ⟨laterX, rfl⟩ := hx
  obtain ⟨laterY, rfl⟩ := hy
  induction xs generalizing ys with
  | nil => exact List.nil_prefix
  | cons x xs ih =>
    cases ys with
    | nil => exact List.nil_prefix
    | cons y ys => exact (List.prefix_cons_inj _).2 ih

/-- Each average is computed from the one before and a single price. -/
theorem prefix_exponentialFrom (k average : Float) {xs ys : List Float} (h : xs <+: ys) :
    exponentialFrom k average xs <+: exponentialFrom k average ys := by
  obtain ⟨later, rfl⟩ := h
  induction xs generalizing average with
  | nil => exact List.nil_prefix
  | cons price prices ih => exact (List.prefix_cons_inj _).2 (ih _)

/-- More prices only add changes. -/
theorem prefix_deltas {xs ys : List Float} (h : xs <+: ys) : deltas xs <+: deltas ys := by
  obtain ⟨later, rfl⟩ := h
  induction xs with
  | nil => exact List.nil_prefix
  | cons older prices ih =>
    cases prices with
    -- the difference to the first of the later prices is not one of the former differences
    | nil => exact List.nil_prefix
    | cons newer rest => exact (List.prefix_cons_inj _).2 ih

/-- More changes only add strengths. -/
theorem prefix_strengthsFrom (period gain loss : Float) {xs ys : List Float} (h : xs <+: ys) :
    strengthsFrom period gain loss xs <+: strengthsFrom period gain loss ys := by
  obtain ⟨later, rfl⟩ := h
  induction xs generalizing gain loss with
  | nil => exact List.nil_prefix
  | cons d ds ih => exact (List.prefix_cons_inj _).2 (ih _ _)

/-- Elements that are there are the first ones of every longer series. -/
theorem take_eq_of_isPrefix {xs ys : List α} (h : xs <+: ys) {n : Nat} (hn : n ≤ xs.length) :
    ys.take n = xs.take n := by
  obtain ⟨later, rfl⟩ := h
  exact List.take_append_of_le_length hn

end Parts

section Computations

variable {period fast slow signal : Nat} {multiplier : Float} {prices more : List Float}
  (hmore : prices <+: more)

include hmore

/-- More prices only add simple averages. -/
theorem extends_simpleAverages (h : period ≤ prices.length) :
    Extends (simpleAverages period prices) (simpleAverages period more) :=
  ⟨_, _, simpleAverages_of_le h, simpleAverages_of_le (h.trans hmore.length_le),
    (prefix_windows period hmore).map _⟩

/-- More prices only add exponential averages. -/
theorem extends_exponentialAverages (h : period ≤ prices.length) :
    Extends (exponentialAverages period prices) (exponentialAverages period more) := by
  refine ⟨_, _, exponentialAverages_of_le h, exponentialAverages_of_le (h.trans hmore.length_le),
    ?_⟩
  -- both start with the mean of the same first period
  rw [take_eq_of_isPrefix hmore h]
  exact (List.prefix_cons_inj _).2 (prefix_exponentialFrom _ _ (hmore.drop period))

/-- More prices only add strengths. -/
theorem extends_strengths (h : (rsi period).requiredHistory ≤ prices.length)
    (hprices : prices.length < maxHistory) :
    Extends (strengths period prices) (strengths period more) := by
  have hdeltas : deltas prices <+: deltas more := prefix_deltas hmore
  have hseed : period ≤ (deltas prices).length := by
    rw [requiredHistory] at h
    rw [length_deltas]
    omega
  refine ⟨_, _, strengths_of_le h, strengths_of_le (h.trans hmore.length_le), ?_⟩
  -- both start with the average gain and loss of the same first period
  rw [take_eq_of_isPrefix hdeltas hseed]
  exact (List.prefix_cons_inj _).2 (prefix_strengthsFrom _ _ _ (hdeltas.drop period))

/-- More prices only add to the line. -/
theorem extends_macdLine (hfast : fast ≤ slow) (h : slow ≤ prices.length) :
    Extends (macdLine fast slow prices) (macdLine fast slow more) := by
  obtain ⟨fasts, moreFasts, hfasts, hmoreFasts, hfastsPrefix⟩ :=
    extends_exponentialAverages hmore (hfast.trans h)
  obtain ⟨slows, moreSlows, hslows, hmoreSlows, hslowsPrefix⟩ :=
    extends_exponentialAverages hmore h
  refine ⟨_, _, ?_, ?_, prefix_zipWith (· - ·) (hfastsPrefix.drop (slow - fast)) hslowsPrefix⟩
  · rw [macdLine, hfasts, hslows]
    rfl
  · rw [macdLine, hmoreFasts, hmoreSlows]
    rfl

/-- More prices only add to the histogram. -/
theorem extends_macdHistogram (hfast : fast ≤ slow)
    (h : (macd fast slow signal).requiredHistory ≤ prices.length)
    (hprices : prices.length < maxHistory) :
    Extends (macdHistogram fast slow signal prices) (macdHistogram fast slow signal more) := by
  have hle : slow + signal ≤ prices.length := by
    rw [requiredHistory] at h
    omega
  obtain ⟨line, moreLine, hline, hmoreLine, hlinePrefix⟩ :=
    extends_macdLine hmore hfast (Nat.le_of_add_right_le hle)
  -- a longer line is to its own averages what a longer series is to the line
  have hsignal : signal ≤ line.length := by
    have hlength := (length_macdLine hfast hline).2
    omega
  obtain ⟨signals, moreSignals, hsignals, hmoreSignals, hsignalsPrefix⟩ :=
    extends_exponentialAverages hlinePrefix hsignal
  refine ⟨_, _, ?_, ?_, prefix_zipWith (· - ·) (hlinePrefix.drop (signal - 1)) hsignalsPrefix⟩
  · rw [macdHistogram, checkLength_of_le h, ok_bind, hline, ok_bind, hsignals]
    rfl
  · rw [macdHistogram, checkLength_of_le (h.trans hmore.length_le), ok_bind, hmoreLine, ok_bind,
      hmoreSignals]
    rfl

/-- More prices only add bands. -/
theorem extends_bands (h : period ≤ prices.length) :
    Extends (bands period multiplier prices) (bands period multiplier more) := by
  have hwindows : windows period prices <+: windows period more := prefix_windows period hmore
  exact ⟨_, _, bands_of_le multiplier h, bands_of_le multiplier (h.trans hmore.length_le),
    prefix_zipWith _ hwindows (hwindows.map _)⟩

/-- More prices only add positions. -/
theorem extends_positions (h : period ≤ prices.length) :
    Extends (positions period multiplier prices) (positions period multiplier more) := by
  have hbands : Extends (bands period multiplier prices) (bands period multiplier more) :=
    extends_bands hmore h
  obtain ⟨bs, moreBs, hbs, hmoreBs, hprefix⟩ := hbands
  refine ⟨_, _, ?_, ?_, prefix_zipWith Band.position hprefix (hmore.drop (period - 1))⟩
  · rw [positions, hbs]
    rfl
  · rw [positions, hmoreBs]
    rfl

end Computations

/-- No indicator looks ahead. With as many prices as are required or more, an indicator whose
parameters make sense has values, and when later prices arrive, these come first among the values
that it has then. The same is true of the line of moving averages that converge and diverge and of
the Bollinger bands. A series always has fewer prices than the largest number of them that can be
required. -/
theorem calculate_extends {i : Indicator} (hcheck : i.check = .ok ()) {prices : List Float}
    (h : i.requiredHistory ≤ prices.length) (hprices : prices.length < maxHistory)
    (later : List Float) :
    Extends (i.calculate prices) (i.calculate (prices ++ later)) ∧
    (∀ fast slow signal, i = .macd fast slow signal →
      Extends (macdLine fast slow prices) (macdLine fast slow (prices ++ later))) ∧
    ∀ period multiplier, i = .bollinger period multiplier →
      Extends (bands period multiplier prices) (bands period multiplier (prices ++ later)) := by
  have hmore : prices <+: prices ++ later := List.prefix_append _ _
  refine ⟨?_, ?_, ?_⟩
  · cases i with
    | rsi period => exact extends_strengths hmore h hprices
    | sma period => exact extends_simpleAverages hmore h
    | ema period => exact extends_exponentialAverages hmore h
    | macd fast slow signal =>
      exact extends_macdHistogram hmore (Nat.le_of_lt (of_check_macd hcheck).1) h hprices
    | bollinger period multiplier => exact extends_positions hmore h
  · rintro fast slow signal rfl
    -- the line needs fewer prices than its histogram
    rw [requiredHistory] at h
    exact extends_macdLine hmore (Nat.le_of_lt (of_check_macd hcheck).1) (by omega)
  · rintro period multiplier rfl
    exact extends_bands hmore h

/-- Three prices have two values of a histogram, and a fourth price adds one behind them. -/
theorem calculate_extends_ofThree :
    let i : Indicator := .macd 1 2 1
    let prices : List Float := [1, 2, 3]
    i.check = .ok () ∧ i.requiredHistory ≤ prices.length ∧ prices.length < maxHistory ∧
      (∃ values more, i.calculate prices = .ok values ∧ i.calculate (prices ++ [4]) = .ok more ∧
        values <+: more ∧ values.length = 2 ∧ more.length = 3) ∧
      Extends (macdLine 1 2 prices) (macdLine 1 2 (prices ++ [4])) := by
  intro i prices
  have hrequired : i.requiredHistory ≤ prices.length := by decide
  have hprices : prices.length < maxHistory := by decide
  obtain ⟨⟨values, more, hvalues, hmore, hprefix⟩, hline, -⟩ :=
    calculate_extends (i := i) rfl hrequired hprices [4]
  refine ⟨rfl, hrequired, hprices, ⟨values, more, hvalues, hmore, hprefix, ?_, ?_⟩, hline 1 2 1 rfl⟩
  · cases hvalues
    decide
  · cases hmore
    decide

/-! ## Earlier prices -/

section Earlier

variable {α : Type} {period : Nat} {i : Indicator}

/-- A window that is too long fits nowhere. -/
theorem windows_of_lt {n : Nat} {xs : List α} (h : xs.length < n) : windows n xs = [] := by
  cases xs with
  | nil => rfl
  | cons x xs => exact if_neg (Nat.not_le.2 h)

/-- Without the first elements there are the same windows, but for the first ones. -/
theorem windows_drop (n k : Nat) (xs : List α) : windows n (xs.drop k) = (windows n xs).drop k := by
  induction k generalizing xs with
  | zero => rfl
  | succ k ih =>
    cases xs with
    | nil => rfl
    | cons x xs =>
      rw [List.drop_succ_cons, ih, windows]
      split
      next => rfl
      next hn =>
        -- where there is no first window there are none at all
        rw [windows_of_lt (by omega), List.drop_nil, List.drop_nil]

/-- Without the first prices an indicator that looks at single periods has the same values, but for
the first ones. -/
theorem calculate_drop (hi : IsWindowed period i) {k : Nat} {prices : List Float}
    (h : period ≤ (prices.drop k).length) :
    i.calculate (prices.drop k) = (i.calculate prices).map (List.drop k) := by
  have hle : period ≤ prices.length := by
    rw [List.length_drop] at h
    omega
  cases hi with
  | sma =>
    rw [calculate, simpleAverages_of_le h, simpleAverages_of_le hle, windows_drop, List.map_drop]
    rfl
  | bollinger multiplier =>
    rw [calculate, positions, positions, bands_of_le multiplier h, bands_of_le multiplier hle]
    rw [ok_bind, ok_bind]
    -- windows, their averages and the prices at their ends lose as many of the first ones
    rw [windows_drop, List.map_drop, ← List.drop_zipWith, List.drop_drop, Nat.add_comm k,
      ← List.drop_drop, ← List.drop_zipWith]
    rfl

/-- An indicator that looks at single periods has the same newest value without the first prices, as
long as there is a period left. -/
theorem getLast?_calculate_drop (hi : IsWindowed period i) (hcheck : i.check = .ok ()) {k : Nat}
    {prices : List Float} (h : period ≤ (prices.drop k).length) :
    (i.calculate (prices.drop k)).map List.getLast? = (i.calculate prices).map List.getLast? := by
  rw [calculate_drop hi h]
  cases hvalues : i.calculate prices with
  | error cause => rfl
  | ok values =>
    have hkept : i.calculate (prices.drop k) = .ok (values.drop k) := by
      rw [calculate_drop hi h, hvalues]
      rfl
    -- there is a value left, since there is one for the period that is left
    have hne : values.drop k ≠ [] := ne_nil_of_calculate hcheck hkept
    have hk : k < values.length := by
      rwa [Ne, List.drop_eq_nil_iff, Nat.not_le] at hne
    show Except.ok (values.drop k).getLast? = Except.ok values.getLast?
    rw [List.getLast?_drop, if_neg (Nat.not_le.2 hk)]

end Earlier

end MarketAlerts.Indicator
