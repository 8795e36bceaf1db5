import MarketAlerts.Power

/-!
# Decimal numbers

A `Decimal` is a signed decimal number with a 96-bit coefficient and between 0 and 28 places
after the point. The number of places is part of the value: `1.5` and `1.50` compare equal and
print differently. Zero may carry a sign.

Every operation that can leave the range answers `none` there; no operation wraps.
-/

namespace MarketAlerts

/-- A signed decimal number: `± coefficient / 10 ^ scale`. -/
structure Decimal where
  /-- The sign; a negative zero is a value of its own and compares equal to zero. -/
  negative : Bool
  /-- The digits, without point and sign. -/
  coefficient : Nat
  /-- The number of digits after the point. -/
  scale : Nat
  /-- The digits fit into 96 bits. -/
  coefficient_lt : coefficient < twoTo 96
  /-- There are at most 28 digits after the point. -/
  scale_le : scale ≤ 28
deriving DecidableEq

namespace Decimal

/-- The first coefficient that does not fit. -/
def limit : Nat := twoTo 96

/-- The largest number of digits after the point. -/
def maxScale : Nat := 28

/-- Positive zero without places. -/
def zero : Decimal := ⟨false, 0, 0, by decide, by decide⟩

/-- One hundred without places. -/
def hundred : Decimal := ⟨false, 100, 0, by decide, by decide⟩

instance : Inhabited Decimal := ⟨zero⟩

/-- The decimal with these parts; a zero made this way is positive. `none` when a part does not
fit. -/
def ofParts? (negative : Bool) (coefficient scale : Nat) : Option Decimal :=
  if h : coefficient < twoTo 96 ∧ scale ≤ 28 then
    some ⟨negative && coefficient != 0, coefficient, scale, h.1, h.2⟩
  else
    none

/-- A whole number of 64 bits or fewer. -/
def ofInt64 (n : Int64) : Decimal :=
  ⟨n.toInt < 0, n.toInt.natAbs, 0, by
    have h₁ := n.toInt_lt
    have h₂ := n.le_toInt
    have h₃ := twoTo_96
    omega, by decide⟩

/-- Whether the number is zero, of either sign. -/
def isZero (d : Decimal) : Bool := d.coefficient == 0

/-- The signed coefficient. -/
def signedCoefficient (d : Decimal) : Int :=
  if d.negative then -(d.coefficient : Int) else d.coefficient

/-- The number with the opposite sign. -/
def neg (d : Decimal) : Decimal := { d with negative := !d.negative }

/-- The number without its sign. -/
def abs (d : Decimal) : Decimal := { d with negative := false }

/-- Numbers are ordered by value: signs of zero and trailing zeros do not count. -/
def cmp (a b : Decimal) : Ordering :=
  compare (a.signedCoefficient * tenTo b.scale) (b.signedCoefficient * tenTo a.scale)

/-- `a < b` by value. -/
def lt (a b : Decimal) : Bool := a.cmp b == .lt

/-- `a ≤ b` by value. -/
def le (a b : Decimal) : Bool := a.cmp b != .gt

/-- Equality by value. -/
def eqv (a b : Decimal) : Bool := a.cmp b == .eq

/-- The quotient rounded to the nearest natural number, a half going to the even neighbour. -/
def divHalfEven (num den : Nat) : Nat :=
  let q := num / den
  let r := num % den
  if 2 * r < den then q
  else if 2 * r > den then q + 1
  else if q % 2 = 0 then q else q + 1

/-- The quotient rounded to the nearest natural number, a half going up. -/
def divHalfUp (num den : Nat) : Nat :=
  let q := num / den
  if 2 * (num % den) < den then q else q + 1

/-- The number written with as few trailing zeros after the point as possible; zero loses its
sign. -/
def normalize (d : Decimal) : Decimal :=
  if d.coefficient = 0 then zero else go d d.scale
where
  /-- Drops at most `n` trailing zeros. -/
  go (d : Decimal) : Nat → Decimal
    | 0 => d
    | n + 1 =>
      if d.scale ≠ 0 ∧ d.coefficient % 10 = 0 then
        go ⟨d.negative, d.coefficient / 10, d.scale - 1,
          Nat.lt_of_le_of_lt (Nat.div_le_self ..) d.coefficient_lt,
          Nat.le_trans (Nat.sub_le ..) d.scale_le⟩ n
      else d

/-- The part before the point, toward zero. -/
def trunc (d : Decimal) : Int :=
  let whole := d.coefficient / tenTo d.scale
  if d.negative then -(whole : Int) else whole

end Decimal

end MarketAlerts
