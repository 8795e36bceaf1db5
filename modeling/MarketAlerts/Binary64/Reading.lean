/-!
# Reading binary floats

`ofDecimal` is the 64-bit float nearest to a decimal number. `ofString?` reads a whole text in
decimal notation (`-1.5e3`, `.5`, `5.`, `inf`, `nan`).
-/

namespace MarketAlerts.Binary64

/-- The float nearest to `digits * 10 ^ power`. Beyond 400 decimal places on either side the
answer is an infinity or zero whatever the digits are. -/
def ofDecimal (negative : Bool) (digits : Nat) (power : Int) : Float :=
  let size : Int := (toString digits).length + power
  let magnitude : Float :=
    if digits = 0 then 0
    else if size > 400 then Float.ofBits 0x7FF0000000000000
    else if size < -400 then 0
    else Float.ofScientific digits (power < 0) power.natAbs
  if negative then -magnitude else magnitude

/-- The digits at the front of a text, as a number and a count, and the rest. -/
def takeDigits : List Char → Nat → Nat → Nat × Nat × List Char
  | [], n, k => (n, k, [])
  | c :: rest, n, k =>
    if '0' ≤ c ∧ c ≤ '9' then takeDigits rest (n * 10 + (c.toNat - '0'.toNat)) (k + 1)
    else (n, k, c :: rest)

/-- The exponent at the end of a number: `e` or `E`, an optional sign, digits. -/
def exponentPart? : List Char → Option Int
  | [] => some 0
  | c :: rest =>
    if c = 'e' ∨ c = 'E' then
      let (negative, rest) := match rest with
        | '-' :: rest => (true, rest)
        | '+' :: rest => (false, rest)
        | rest => (false, rest)
      match takeDigits rest 0 0 with
      -- nothing may follow the digits, of which there must be one
      | (n, k, []) => if k = 0 then none else some (if negative then -(n : Int) else n)
      | _ => none
    else none

/-- A number in decimal notation, or the name of an infinity or of no number, in any case. -/
def ofString? (text : String) : Option Float :=
  let (negative, rest) := match text.toList with
    | '-' :: rest => (true, rest)
    | '+' :: rest => (false, rest)
    | rest => (false, rest)
  -- names are tried first, since none of them starts with a digit
  let word := (String.ofList rest).map Char.toLower
  if word = "inf" ∨ word = "infinity" then
    some (if negative then Float.ofBits 0xFFF0000000000000 else Float.ofBits 0x7FF0000000000000)
  else if word = "nan" then some (Float.ofBits 0x7FF8000000000000)
  else
    let (whole, k, rest) := takeDigits rest 0 0
    let (digits, places, k, rest) := match rest with
      | '.' :: rest =>
        let (n, j, rest) := takeDigits rest whole 0
        (n, j, k + j, rest)
      | rest => (whole, 0, k, rest)
    -- a point alone is no number, but digits on one side of it are enough
    if k = 0 then none
    else (exponentPart? rest).map fun e => ofDecimal negative digits (e - places)

end MarketAlerts.Binary64
