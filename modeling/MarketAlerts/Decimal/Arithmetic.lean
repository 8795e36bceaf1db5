import MarketAlerts.Decimal.Basic

/-!
# Decimal arithmetic

Sums, products and quotients are exact when they fit; otherwise as many places as fit are kept
and the last one is rounded, a half going to the even neighbour. The answer is `none` only when
the whole part alone does not fit, or when a divisor is zero.

`roundEven` and `roundAway` cut a number to a given count of places.
-/

namespace MarketAlerts.Decimal

/-- The decimal nearest to `n / 10 ^ scale` among those with the most places that fit. -/
def fit? (negative : Bool) (n scale : Nat) : Option Decimal :=
  (List.range (min scale maxScale + 1)).reverse.findSome? fun places =>
    let coefficient := divHalfEven n (tenTo (scale - places))
    if coefficient < limit then ofParts? negative coefficient places else none

/-- The difference. A zero operand leaves the other one as it is written. -/
def sub? (a b : Decimal) : Option Decimal :=
  if a.isZero then some (if b.isZero then b else b.neg)
  else if b.isZero then some a
  else
    let scale := max a.scale b.scale
    let n := a.signedCoefficient * tenTo (scale - a.scale)
      - b.signedCoefficient * tenTo (scale - b.scale)
    fit? (n < 0) n.natAbs scale

/-- The product. A zero operand makes it a plain zero. -/
def mul? (a b : Decimal) : Option Decimal :=
  if a.isZero || b.isZero then some zero
  else fit? (a.negative != b.negative) (a.coefficient * b.coefficient) (a.scale + b.scale)

/-- A quotient under construction: `digits` so far, to be followed by at most `room` places. The
point stands `28 - room` places from the right, so that more than 28 places of room stand for
zeros still missing before the point. -/
structure Quotient where
  /-- The digits so far. -/
  digits : Nat
  /-- How many more places there may be. -/
  room : Nat

namespace Quotient

/-- How many digits can be appended to the coefficient `digits` at once: at most nine, at most
`room`, and no more than fit. -/
def block (digits room : Nat) : Nat :=
  ((List.range (min 9 room + 1)).reverse.find? fun p => digits * tenTo p < limit).getD 0

/-- No more digits are appended at once than there is room for. -/
theorem block_le_room (digits room : Nat) : block digits room ≤ room := by
  unfold block
  cases h : (List.range (min 9 room + 1)).reverse.find? fun p =>
      decide (digits * tenTo p < limit) with
  | none => simp
  | some p =>
    have hp := List.mem_of_find?_eq_some h
    simp only [List.mem_reverse, List.mem_range] at hp
    simp only [Option.getD_some]
    omega

/-- The last digit goes up. A full coefficient gives up one place. -/
def roundUp? (q : Quotient) : Option Quotient :=
  if q.digits + 1 < limit then some { q with digits := q.digits + 1 }
  else if q.room < maxScale then some ⟨limit / 10 + 1, q.room + 1⟩
  else none

/-- Gives up the last digit of a coefficient that is too long, rounding to nearest; `sticky` says
that nonzero digits were cut off before. -/
def giveUpDigit? (q : Quotient) (sticky : Bool) : Option Quotient :=
  if q.room < maxScale then
    let kept := q.digits / 10
    let last := q.digits % 10
    let up := last > 5 || (last == 5 && (sticky || kept % 2 == 1))
    some ⟨if up then kept + 1 else kept, q.room + 1⟩
  else none

/-- Long division in blocks of up to nine digits: appends digits until the remainder vanishes or
there is no room, and then rounds to nearest. -/
def extend? (divisor : Nat) (q : Quotient) (remainder : Nat) : Option Quotient :=
  if remainder = 0 then
    if q.room ≤ maxScale then some q
    else
      let digits := q.digits * tenTo (q.room - maxScale)
      if digits < limit then some ⟨digits, maxScale⟩ else none
  else
    let p := block q.digits q.room
    -- Zeros are still missing before the point, and there is no room for them.
    if p < min 9 q.room ∧ maxScale + p < q.room then none
    else if _ : p = 0 then
      if 2 * remainder > divisor ∨ (2 * remainder = divisor ∧ q.digits % 2 = 1) then q.roundUp?
      else some q
    else
      let next : Quotient :=
        ⟨q.digits * tenTo p + remainder * tenTo p / divisor, q.room - p⟩
      let rest := remainder * tenTo p % divisor
      -- The new digits may carry the coefficient just past its limit.
      if next.digits < limit then next.extend? divisor rest
      else next.giveUpDigit? (rest != 0)
termination_by q.room
decreasing_by
  have := block_le_room q.digits q.room
  show q.room - block q.digits q.room < q.room
  have : block q.digits q.room ≠ 0 := by assumption
  omega

/-- Drops `count` trailing zeros if there are that many. -/
def dropZeros (count : Nat) (q : Quotient) : Quotient :=
  if count + q.room ≤ maxScale ∧ q.digits % tenTo count = 0 then
    ⟨q.digits / tenTo count, q.room + count⟩
  else q

/-- Drops trailing zeros: blocks of eight while the low 32 bits are zero, then at most one block
each of four, two and one. -/
def trim (q : Quotient) : Quotient :=
  (dropBlocks 3 q |>.dropZeros 4 |>.dropZeros 2 |>.dropZeros 1)
where
  /-- Drops at most `n` blocks of eight zeros. -/
  dropBlocks : Nat → Quotient → Quotient
    | 0, q => q
    | n + 1, q => if q.digits % twoTo 32 = 0 then dropBlocks n (q.dropZeros 8) else q

end Quotient

/-- The quotient: `none` for a zero divisor and for a whole part that does not fit. An exact
quotient of the coefficients keeps the difference of the places. -/
def div? (a b : Decimal) : Option Decimal :=
  if b.isZero then none
  else if a.isZero then some zero
  else do
    let exact := a.coefficient % b.coefficient = 0
    let start : Quotient := ⟨a.coefficient / b.coefficient, maxScale + b.scale - a.scale⟩
    let q ← start.extend? b.coefficient (a.coefficient % b.coefficient)
    let q := if exact then q else q.trim
    ofParts? (a.negative != b.negative) q.digits (maxScale - q.room)

/-- The number cut to at most `places` places, rounded with `round`. A zero keeps its sign. -/
def roundWith (round : Nat → Nat → Nat) (d : Decimal) (places : Nat) : Decimal :=
  if h : d.scale ≤ places then d
  else if d.isZero then { d with scale := places, scale_le := by have := d.scale_le; omega }
  else (ofParts? d.negative (round d.coefficient (tenTo (d.scale - places))) places).getD zero

/-- At most `places` places, a half going to the even neighbour. -/
def roundEven (d : Decimal) (places : Nat) : Decimal := d.roundWith divHalfEven places

/-- At most `places` places, a half going away from zero. -/
def roundAway (d : Decimal) (places : Nat) : Decimal := d.roundWith divHalfUp places

end MarketAlerts.Decimal
