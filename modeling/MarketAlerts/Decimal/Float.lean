import MarketAlerts.Decimal.Text
import MarketAlerts.Binary64.Shortest

/-!
# Decimals and binary floats

`toFloat` goes from a decimal to a 64-bit float, `ofFloat?` back, keeping fifteen to sixteen
significant digits. A float that is no number, infinite or too large has no decimal; a negative
one that is too small becomes the negative zero.
-/

namespace MarketAlerts.Decimal

/-- The float of a decimal: whole part and fraction are converted on their own, added, and the
sum is rounded to the places of the decimal. -/
def toFloat (d : Decimal) : Float :=
  let magnitude :=
    if d.scale = 0 then Float.ofNat d.coefficient
    else
      let unit := tenTo d.scale
      let fraction := Float.ofNat (d.coefficient % unit) / Float.ofNat unit
      let whole := Float.ofNat (d.coefficient / unit)
      -- a whole number is not rounded again, which could move a large one
      if fraction == 0 then whole
      else
        let step := Float.ofNat unit
        ((whole + fraction) * step).round / step
  if d.negative then -magnitude else magnitude

/-- A number `mantissa * 10 ^ tens` on its way from binary to decimal notation; while powers of
two are still to be divided out, `tens` counts them as tens. -/
structure Descent where
  /-- The integer significand, below `2 ^ 96`. -/
  mantissa : Nat
  /-- The power of ten. -/
  tens : Int

namespace Descent

/-- Divides by two, `n` times, as a multiplication by five tenths. An even mantissa is halved
instead, and one with no room for the factor five is halved with loss. -/
def halve : Nat → Descent → Descent
  | 0, d => d
  | n + 1, d =>
    if d.mantissa % 2 = 0 then halve n ⟨d.mantissa / 2, d.tens + 1⟩
    else if d.mantissa * 5 < limit then halve n ⟨d.mantissa * 5, d.tens⟩
    else halve n ⟨d.mantissa / 2, d.tens + 1⟩

/-- Drops the last digit, rounding a half up. -/
def dropDigit (d : Descent) : Descent :=
  let up := if d.mantissa / 10 ≠ 0 ∧ 5 ≤ d.mantissa % 10 then 1 else 0
  ⟨d.mantissa / 10 + up, d.tens + 1⟩

/-- Drops digits while `more` asks for it, at most `n`. -/
def dropWhile (more : Descent → Bool) : Nat → Descent → Descent
  | 0, d => d
  | n + 1, d => if more d then dropWhile more n d.dropDigit else d

/-- No more than 28 places: what vanishes below them is zero. -/
def toPlaces (d : Descent) : Descent :=
  let d := dropWhile (fun d => d.tens < -28 && d.mantissa != 0) 1200 d
  if d.mantissa = 0 then ⟨0, 0⟩ else d

end Descent

/-- The decimal of a finite float. Whole numbers below `2 ^ 96` are exact; otherwise a mantissa of
at least `2 ^ 52` gives up places. -/
def ofFloat? (x : Float) : Option Decimal :=
  if !x.isFinite then none
  else if x == 0 then some { zero with negative := Binary64.isNegative x }
  else
    let parts := Binary64.Parts.ofFloat x
    let start : Descent :=
      ⟨parts.mantissa * twoTo parts.exponent.toNat, min parts.exponent 0⟩
    let d := start.halve (-parts.exponent).toNat
    if d.mantissa < limit then
      let d := d.toPlaces
      -- Only so many digits of the float are meant; the others come from its binary form.
      let d := d.dropWhile (fun d => d.tens < 0 && twoTo 52 ≤ d.mantissa) 28
      let d := d.dropWhile (fun d => d.tens < 0 && d.mantissa % 10 == 0) 28
      if h : d.mantissa < twoTo 96 ∧ (-d.tens).toNat ≤ 28 then
        some ⟨Binary64.isNegative x, d.mantissa, (-d.tens).toNat, h.1, h.2⟩
      else none
    else none

end MarketAlerts.Decimal
