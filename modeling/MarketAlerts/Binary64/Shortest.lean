import MarketAlerts.Power

/-!
# Shortest text of a binary float

The fewest decimal digits that read back as the same 64-bit float; of those the nearest to it.
The search works on exact natural numbers: a finite positive float is `m * 2 ^ q`, and the reals
that round to it lie between the midpoints to its neighbours.
-/

namespace MarketAlerts.Binary64

/-- A positive finite float `mantissa * 2 ^ exponent`, where `narrow` says that the gap below it
is half the gap above. -/
structure Parts where
  /-- The integer significand. -/
  mantissa : Nat
  /-- The power of two. -/
  exponent : Int
  /-- Whether the next smaller float is nearer than the next larger one. -/
  narrow : Bool

/-- A positive finite float taken apart by its bits; the sign is left out. -/
def Parts.ofFloat (x : Float) : Parts :=
  let bits : Nat := x.toBits.toNat
  let fraction : Nat := bits % twoTo 52
  let field : Nat := bits / twoTo 52 % twoTo 11
  if field = 0 then ⟨fraction, -1074, false⟩
  else ⟨fraction + twoTo 52, (field : Int) - 1075, fraction == 0 && field != 1⟩

/-- A decimal number `digits * 10 ^ power`. -/
structure Digits where
  /-- The significant digits as one number. -/
  digits : Nat
  /-- The power of ten. -/
  power : Int
deriving DecidableEq, Repr

/-- The reals that round to one float, as four numbers over one denominator. -/
structure Interval where
  /-- The lower midpoint. -/
  low : Nat
  /-- The float itself. -/
  value : Nat
  /-- The upper midpoint. -/
  high : Nat
  /-- The common denominator. -/
  den : Nat
  /-- Whether the midpoints themselves round to the float. -/
  closed : Bool

/-- The interval of a float: midpoints belong to it when its significand is even. -/
def Parts.interval (p : Parts) : Interval :=
  let up := twoTo (p.exponent - 2).toNat
  let down := twoTo (2 - p.exponent).toNat
  let m := 4 * p.mantissa
  ⟨(m - (if p.narrow then 1 else 2)) * up, m * up, (m + 2) * up, down, p.mantissa % 2 == 0⟩

/-- Whether `num / den` lies in the interval. -/
def Interval.contains (i : Interval) (num den : Nat) : Bool :=
  let x := num * i.den
  if i.closed then i.low * den ≤ x && x ≤ i.high * den
  else i.low * den < x && x < i.high * den

/-- The number of decimal digits of `n`. -/
def digitCount (n : Nat) : Nat := (toString n).length

/-- The exponent of the first significant digit of `num / den`. -/
def leadingPower (num den : Nat) : Int :=
  let guess : Int := (digitCount num : Int) - digitCount den
  if den * tenTo guess.toNat ≤ num * tenTo (-guess).toNat then guess else guess - 1

/-- The nearest point of the grid `10 ^ power` inside the interval, of the two neighbours of the
float; an exact tie goes up. -/
def Interval.onGrid? (i : Interval) (power : Int) : Option Nat :=
  let num := i.value * tenTo (-power).toNat
  let den := i.den * tenTo power.toNat
  let below := num / den
  let inside (n : Nat) : Bool := i.contains (n * tenTo power.toNat) (tenTo (-power).toNat)
  let first := if 2 * (num % den) < den then below else below + 1
  let second := if first = below then below + 1 else below
  if inside first then some first else if inside second then some second else none

/-- The shortest digits of a positive finite float. -/
def Parts.shortest (p : Parts) : Digits :=
  let i := p.interval
  let lead := leadingPower i.value i.den
  -- Seventeen digits tell any two floats apart.
  ((List.range 17).findSome? fun (n : Nat) =>
    let power := lead - (n : Int)
    (i.onGrid? power).map fun d => (⟨d, power⟩ : Digits)).getD ⟨0, 0⟩

/-- Digits without trailing zeros. -/
def Digits.trim (d : Digits) : Digits := go 20 d
where
  /-- Drops at most `n` zeros. -/
  go : Nat → Digits → Digits
    | 0, d => d
    | n + 1, d => if d.digits ≠ 0 ∧ d.digits % 10 = 0 then go n ⟨d.digits / 10, d.power + 1⟩ else d

/-- Positional notation: no exponent, and no point in a whole number. -/
def Digits.positional (d : Digits) : String :=
  let text := toString d.digits
  let zeros (n : Nat) : String := String.ofList (List.replicate n '0')
  if 0 ≤ d.power then text ++ zeros d.power.toNat
  else
    let places := (-d.power).toNat
    let padded := zeros (places + 1 - text.length) ++ text
    let whole := padded.length - places
    (padded.take whole).toString ++ "." ++ (padded.drop whole).toString

/-- The magnitude of a finite float in shortest positional notation. -/
def magnitude (x : Float) : String :=
  if x == 0 then "0" else (Parts.ofFloat x).shortest.trim.positional

/-- Whether the sign bit is set. -/
def isNegative (x : Float) : Bool := x.toBits >>> 63 == 1

/-- Shortest positional notation, with `NaN`, `inf` and `-inf` for what is no number. -/
def toText (x : Float) : String :=
  if x.isNaN then "NaN"
  else
    let sign := if isNegative x then "-" else ""
    sign ++ (if x.isInf then "inf" else magnitude x)

/-- Shortest positional notation that always shows a point: whole numbers end in `.0`, and not a
number is `nan`. -/
def toPointedText (x : Float) : String :=
  if x.isNaN then "nan"
  else
    let text := toText x
    if x.isFinite && !text.contains '.' then text ++ ".0" else text

end MarketAlerts.Binary64
