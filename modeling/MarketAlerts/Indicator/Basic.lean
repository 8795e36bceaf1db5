import MarketAlerts.Json.Decode

/-!
# Technical indicators

An `Indicator` names a computation over a series of prices together with its parameters.
`Indicator.check` says whether the parameters make sense, and `Indicator.requiredHistory` how many
prices the computation needs. Periods are natural numbers of 64 bits.
-/

namespace MarketAlerts

/-- A technical indicator with its parameters. -/
inductive Indicator where
  /-- The relative strength index with Wilder's smoothing. -/
  | rsi (period : Nat)
  /-- The simple moving average. -/
  | sma (period : Nat)
  /-- The exponential moving average. -/
  | ema (period : Nat)
  /-- The histogram of moving average convergence and divergence. -/
  | macd (fast slow signal : Nat)
  /-- The place of the price between the Bollinger bands: zero on the lower, one on the upper. -/
  | bollinger (period : Nat) (multiplier : Float)
deriving Inhabited

namespace Indicator

/-- Why an indicator has no values. -/
inductive Error where
  /-- There are fewer prices than the computation needs. -/
  | insufficientData (required available : Nat)
  /-- A parameter makes no sense. -/
  | invalidParameter (rule : String)
deriving DecidableEq

/-- The text of an error. -/
def Error.message : Error → String
  | .insufficientData required available =>
    "insufficient data: need " ++ toString required ++ ", got " ++ toString available
  | .invalidParameter rule => "invalid parameter: " ++ rule

/-- The name of an indicator. -/
def name : Indicator → String
  | rsi _ => "rsi"
  | sma _ => "sma"
  | ema _ => "ema"
  | macd _ _ _ => "macd"
  | bollinger _ _ => "bollinger"

/-- The largest count of prices that can be asked for. -/
def maxHistory : Nat := twoTo 64 - 1

/-- How many prices are needed for one value. -/
def requiredHistory : Indicator → Nat
  | rsi period => min (period + 1) maxHistory
  | sma period => period
  | ema period => period
  | macd _ slow signal => min (slow + signal) maxHistory
  | bollinger period _ => period

/-- A period is not zero. -/
def checkPeriod (period : Nat) : Except Error Unit :=
  if period = 0 then .error (.invalidParameter "period must be > 0") else .ok ()

/-- Whether the parameters make sense. -/
def check : Indicator → Except Error Unit
  | rsi period => checkPeriod period
  | sma period => checkPeriod period
  | ema period => checkPeriod period
  | macd fast slow signal =>
    if fast = 0 ∨ slow = 0 ∨ signal = 0 then
      .error (.invalidParameter "all periods must be > 0")
    else if slow ≤ fast then .error (.invalidParameter "fast_period must be < slow_period")
    else .ok ()
  | bollinger period multiplier =>
    -- neither an infinity nor what is no number is at most zero
    if multiplier ≤ 0 || !multiplier.isFinite then
      .error (.invalidParameter "std_dev_multiplier must be > 0")
    else checkPeriod period

/-- The indicator as a tagged JSON object. -/
def toJson : Indicator → Json
  | rsi period => .obj [("kind", .str "rsi"), ("period", .nat period)]
  | sma period => .obj [("kind", .str "sma"), ("period", .nat period)]
  | ema period => .obj [("kind", .str "ema"), ("period", .nat period)]
  | macd fast slow signal =>
    .obj [("kind", .str "macd"), ("fast", .nat fast), ("slow", .nat slow), ("signal", .nat signal)]
  | bollinger period multiplier =>
    .obj [("kind", .str "bollinger"), ("period", .nat period),
      ("std_dev_multiplier", .float multiplier)]

/-- The names of all indicators, in order. -/
def names : List String := ["rsi", "sma", "ema", "macd", "bollinger"]

/-- An indicator as a tagged record. Where `nested` says that it stands inside another tagged
record, the tag may also be the position of the name. -/
def ofJson? (nested : Bool) (v : Json) : Option Indicator := do
  let (tag, body) ← v.tagged? "kind"
  let kind ← match tag with
    | .str s => some s
    | .num (.int n) => if nested ∧ 0 ≤ n then names[n.toNat]? else none
    | _ => none
  let single (make : Nat → Indicator) : Option Indicator := do
    let r ← body.record? ["period"]
    return make (← r.field? "period" Json.nat64?)
  match kind with
  | "rsi" => single rsi
  | "sma" => single sma
  | "ema" => single ema
  | "macd" => do
    let r ← body.record? ["fast", "slow", "signal"]
    return macd (← r.field? "fast" Json.nat64?) (← r.field? "slow" Json.nat64?)
      (← r.field? "signal" Json.nat64?)
  | "bollinger" => do
    let r ← body.record? ["period", "std_dev_multiplier"]
    return bollinger (← r.field? "period" Json.nat64?) (← r.field? "std_dev_multiplier" Json.float?)
  | _ => none

end Indicator

end MarketAlerts
