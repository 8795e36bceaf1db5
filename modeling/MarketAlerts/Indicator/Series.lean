import MarketAlerts.Indicator.Basic

/-!
# Indicator values

The values of an indicator over a series of prices, oldest first: one for each price once there
is enough history. Sums run from the oldest price to the newest and start at negative zero, the
neutral element of addition.
-/

namespace MarketAlerts.Indicator

/-- The sum, from left to right. -/
def sum (xs : List Float) : Float := xs.foldl (· + ·) (-0.0)

/-- The arithmetic mean over a period. -/
def mean (period : Nat) (xs : List Float) : Float := sum xs / Float.ofNat period

/-- All runs of `n` neighbours, from left to right. -/
def windows (n : Nat) : List α → List (List α)
  | [] => []
  | x :: xs => if n ≤ xs.length + 1 then (x :: xs).take n :: windows n xs else []

/-- Needs at least `required` prices. -/
def checkLength (required : Nat) (prices : List Float) : Except Error Unit :=
  if prices.length < required then .error (.insufficientData required prices.length) else .ok ()

/-- The simple moving average: the mean of every window. -/
def simpleAverages (period : Nat) (prices : List Float) : Except Error (List Float) := do
  checkLength period prices
  return (windows period prices).map (mean period)

/-- The averages after `average`, each moved toward the next price by the weight `k`. -/
def exponentialFrom (k average : Float) : List Float → List Float
  | [] => []
  | price :: prices =>
    let next := price * k + average * (1 - k)
    next :: exponentialFrom k next prices

/-- The exponential moving average, started with the mean of the first period. -/
def exponentialAverages (period : Nat) (prices : List Float) : Except Error (List Float) := do
  checkLength period prices
  let k := 2 / (Float.ofNat period + 1)
  let start := mean period (prices.take period)
  return start :: exponentialFrom k start (prices.drop period)

/-- The differences between neighbours, the older one subtracted. -/
def deltas : List Float → List Float
  | older :: newer :: rest => (newer - older) :: deltas (newer :: rest)
  | _ => []

/-- A number, or zero if it is not positive. -/
def positivePart (x : Float) : Float := if x > 0 then x else 0

/-- The strength index of an average gain and an average loss. -/
def strength (gain loss : Float) : Float :=
  if loss == 0 then 100 else 100 - 100 / (1 + gain / loss)

/-- The strength indices after `gain` and `loss`, which are smoothed with every difference. -/
def strengthsFrom (period gain loss : Float) : List Float → List Float
  | [] => []
  | delta :: rest =>
    let gain := (gain * (period - 1) + positivePart delta) / period
    let loss := (loss * (period - 1) + positivePart (-delta)) / period
    strength gain loss :: strengthsFrom period gain loss rest

/-- The relative strength index. -/
def strengths (period : Nat) (prices : List Float) : Except Error (List Float) := do
  checkLength (rsi period).requiredHistory prices
  let ds := deltas prices
  let gain := mean period ((ds.take period).map positivePart)
  let loss := mean period ((ds.take period).map fun d => positivePart (-d))
  return strength gain loss :: strengthsFrom (Float.ofNat period) gain loss (ds.drop period)

/-- The difference of a fast and a slow exponential average, from the first slow one on. -/
def macdLine (fast slow : Nat) (prices : List Float) : Except Error (List Float) := do
  let fastAverages ← exponentialAverages fast prices
  let slowAverages ← exponentialAverages slow prices
  -- The fast averages begin earlier than the slow ones.
  return List.zipWith (· - ·) (fastAverages.drop (slow - fast)) slowAverages

/-- The difference of the line above and its own exponential average. -/
def macdHistogram (fast slow signal : Nat) (prices : List Float) : Except Error (List Float) := do
  checkLength (macd fast slow signal).requiredHistory prices
  let line ← macdLine fast slow prices
  let signals ← exponentialAverages signal line
  return List.zipWith (· - ·) (line.drop (signal - 1)) signals

/-- A moving average between two bands. -/
structure Band where
  /-- The upper band. -/
  upper : Float
  /-- The moving average. -/
  middle : Float
  /-- The lower band. -/
  lower : Float

/-- The band around a window of prices with a known mean. -/
def Band.around (period : Nat) (multiplier middle : Float) (window : List Float) : Band :=
  let variance := mean period (window.map fun p => (p - middle) * (p - middle))
  let width := multiplier * variance.sqrt
  ⟨middle + width, middle, middle - width⟩

/-- The Bollinger bands of every window. -/
def bands (period : Nat) (multiplier : Float) (prices : List Float) : Except Error (List Band) := do
  let middles ← simpleAverages period prices
  return List.zipWith (fun window middle => Band.around period multiplier middle window)
    (windows period prices) middles

/-- The distance between one and the next larger float. -/
def epsilon : Float := Float.ofBits 0x3CB0000000000000

/-- Where a price stands between the bands; the middle when the bands fall together. -/
def Band.position (b : Band) (price : Float) : Float :=
  let width := b.upper - b.lower
  if width.abs < epsilon then 0.5 else (price - b.lower) / width

/-- The place of every price between its bands. -/
def positions (period : Nat) (multiplier : Float) (prices : List Float) :
    Except Error (List Float) := do
  let bs ← bands period multiplier prices
  return List.zipWith Band.position bs (prices.drop (period - 1))

/-- The values of an indicator whose parameters make sense. -/
def calculate : Indicator → List Float → Except Error (List Float)
  | rsi period => strengths period
  | sma period => simpleAverages period
  | ema period => exponentialAverages period
  | macd fast slow signal => macdHistogram fast slow signal
  | bollinger period multiplier => positions period multiplier

end MarketAlerts.Indicator
