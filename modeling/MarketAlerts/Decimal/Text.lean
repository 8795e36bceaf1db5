import MarketAlerts.Decimal.Arithmetic

/-!
# Decimal text

`toString` writes all places of a number; `fixed` writes exactly the places asked for. `ofString?`
reads plain notation (`-12.50`, with underscores between digits) and, failing that, scientific
notation (`1.5e-3`).
-/

namespace MarketAlerts.Decimal

/-- The digits of a coefficient with a point before the last `places` of them. -/
def pointed (coefficient places : Nat) : String :=
  let digits := toString coefficient
  if places = 0 then digits
  else
    let padded := String.ofList (List.replicate (places + 1 - digits.length) '0') ++ digits
    let whole := padded.length - places
    (padded.take whole).toString ++ "." ++ (padded.drop whole).toString

/-- All places, with a minus sign before a negative number and before a negative zero. -/
protected def toString (d : Decimal) : String :=
  (if d.negative then "-" else "") ++ pointed d.coefficient d.scale

instance : ToString Decimal := ⟨Decimal.toString⟩

/-- Exactly `places` places: missing ones are zeros, further ones are cut off. -/
def fixed (d : Decimal) (places : Nat) : String :=
  (if d.negative then "-" else "") ++
    pointed (d.coefficient * tenTo (places - d.scale) / tenTo (d.scale - places)) places

/-- What has been read of a number in plain notation. -/
structure Scan where
  /-- The digits so far. -/
  coefficient : Nat := 0
  /-- How many of them stand after the point. -/
  scale : Nat := 0
  /-- Whether the point has been read. -/
  point : Bool := false
  /-- Whether a digit has been read. -/
  digit : Bool := false

namespace Scan

/-- The value of a decimal digit. -/
def digitValue? (c : Char) : Option Nat :=
  if '0' ≤ c ∧ c ≤ '9' then some (c.toNat - '0'.toNat) else none

/-- Whether all places have been read. -/
def isFull (s : Scan) : Bool := s.point && maxScale ≤ s.scale

/-- Whether the coefficient outgrew one word before its last digit. -/
def isLong (s : Scan) : Bool := (twoTo 64 - 1) / 10 - 255 ≤ s.coefficient / 10

/-- Ends a number. -/
def finish? (negative : Bool) (s : Scan) : Option Decimal :=
  ofParts? negative s.coefficient s.scale

/-- Ends a number with a digit for which there is no room: it rounds the last place, a half going
up, and a full coefficient gives up one place. -/
def finishRounded? (negative : Bool) (s : Scan) (d : Nat) : Option Decimal :=
  if d < 5 then s.finish? negative
  else if s.coefficient + 1 < limit then
    finish? negative { s with coefficient := s.coefficient + 1 }
  else if s.scale = 0 then none
  else finish? negative { s with coefficient := (s.coefficient + 5) / 10, scale := s.scale - 1 }

/-- Whether some characters may stand behind the digit that rounds a number. -/
def isTail (rest : List Char) : Bool := rest.all fun c => c = '_' || (digitValue? c).isSome

/-- Reads the characters that may follow the sign. An underscore behind the last place ends a short
number and is skipped in a long one, so that the digit after it still rounds the number. -/
def run? (negative : Bool) (s : Scan) : List Char → Option Decimal
  | [] => if s.digit then s.finish? negative else none
  | c :: rest =>
    if c = '.' then
      if s.point then none else run? negative { s with point := true } rest
    else if c = '_' then
      if !s.digit then none
      -- what stands behind the last place is looked at, and dropped
      else if s.isFull && !s.isLong then
        if isTail rest then s.finish? negative else none
      else run? negative s rest
    else
      match digitValue? c with
      | none => none
      | some d =>
        let coefficient := s.coefficient * 10 + d
        -- there is no room for this digit, and only a fraction may be cut
        if s.isFull ∨ (s.point ∧ limit ≤ coefficient) then
          if isTail rest then s.finishRounded? negative d else none
        else if limit ≤ coefficient then none
        else
          let scale := if s.point then s.scale + 1 else 0
          run? negative { s with coefficient, scale, digit := true } rest

end Scan

/-- Plain notation: an optional sign, digits with an optional point, underscores after the first
digit. Places that do not fit are rounded, a half going up in size. -/
def ofPlain? (text : List Char) : Option Decimal :=
  match text with
  | '-' :: rest => Scan.run? true {} rest
  | '+' :: rest => Scan.run? false {} rest
  | rest => Scan.run? false {} rest

/-- A natural number below `2 ^ 32`: digits with an optional plus sign. -/
def exponent? (text : List Char) : Option Nat := do
  let digits := match text with
    | '+' :: rest => rest
    | rest => rest
  if digits.isEmpty then none
  let n ← digits.foldlM (fun n c => (Scan.digitValue? c).map (n * 10 + ·)) 0
  if n < twoTo 32 then some n else none

/-- The same digits with the point at another place. -/
def withScale? (d : Decimal) (scale : Nat) : Option Decimal :=
  if h : scale ≤ 28 then some { d with scale, scale_le := h } else none

/-- The number with its point moved `n` places to the left. Places that do not fit are cut off, a
half going up in size; the sign stays even where nothing is left. -/
def shiftRight? (d : Decimal) (n : Nat) : Option Decimal :=
  if maxScale < n then none
  else
    let kept := min d.scale (maxScale - n)
    (ofParts? d.negative (divHalfUp d.coefficient (tenTo (d.scale - kept))) (kept + n)).map
      fun shifted => { shifted with negative := d.negative }

/-- The number with its point moved `n` places to the right. -/
def shiftLeft? (d : Decimal) (n : Nat) : Option Decimal :=
  if n ≤ d.scale then d.withScale? (d.scale - n)
  else if n ≤ maxScale then do
    let ten (n : Nat) := ofParts? false (tenTo n) 0
    let shifted ← d.mul? (← ten (min n 19))
    return (← shifted.mul? (← ten (n - min n 19))).normalize
  else none

/-- Scientific notation: a number in plain notation, `e` or `E`, and an exponent of at most 28. -/
def ofScientific? (text : List Char) : Option Decimal := do
  let isMark (c : Char) : Bool := c = 'e' || c = 'E'
  let base ← ofPlain? (text.takeWhile (!isMark ·))
  match text.dropWhile (!isMark ·) with
  | [] => none
  | _ :: '-' :: digits => base.shiftRight? (← exponent? digits)
  | _ :: digits => base.shiftLeft? (← exponent? digits)

/-- Plain notation, else scientific notation. -/
def ofString? (text : String) : Option Decimal :=
  let cs := text.toList
  (ofPlain? cs).or (ofScientific? cs)

end MarketAlerts.Decimal
