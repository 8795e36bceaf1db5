import MarketAlerts.Toml.Basic
import MarketAlerts.Binary64.Reading

/-!
# TOML scalars

Numbers, truth values, dates and times as they stand in a TOML text, read from one unbroken word.
-/

namespace MarketAlerts.Toml

/-- The value of a digit in a base of at most sixteen. -/
def digitIn? (base : Nat) (c : Char) : Option Nat :=
  let value :=
    if '0' ≤ c ∧ c ≤ '9' then some (c.toNat - '0'.toNat)
    else if 'a' ≤ c ∧ c ≤ 'f' then some (c.toNat - 'a'.toNat + 10)
    else if 'A' ≤ c ∧ c ≤ 'F' then some (c.toNat - 'A'.toNat + 10)
    else none
  value.filter (· < base)

/-- Digits of a base, with single underscores between them, without the underscores. -/
def digits? (base : Nat) (cs : List Char) : Option (List Char) :=
  match cs with
  | [] => none
  | c :: rest => if (digitIn? base c).isSome then (go rest).map (c :: ·) else none
where
  /-- Reads what follows a digit. -/
  go : List Char → Option (List Char)
    | [] => some []
    | '_' :: c :: rest => if (digitIn? base c).isSome then (go rest).map (c :: ·) else none
    | c :: rest => if (digitIn? base c).isSome then (go rest).map (c :: ·) else none

/-- The number of some digits of a base. -/
def numberIn (base : Nat) (cs : List Char) : Nat :=
  cs.foldl (fun n c => n * base + (digitIn? base c).getD 0) 0

/-- A sign at the front of a word. -/
def takeSign : List Char → Bool × List Char
  | '-' :: rest => (true, rest)
  | '+' :: rest => (false, rest)
  | rest => (false, rest)

/-- Digits of the whole part of a decimal number: no leading zero. -/
def wholeDigits? (cs : List Char) : Option (List Char) :=
  (digits? 10 cs).filter fun ds => ds.length = 1 || ds.head? != some '0'

/-- A whole number: decimal with an optional sign, or `0x`, `0o`, `0b` and digits. -/
def int? (word : List Char) : Option Int :=
  match word with
  | '0' :: 'x' :: ds => (digits? 16 ds).map fun ds => (numberIn 16 ds : Int)
  | '0' :: 'o' :: ds => (digits? 8 ds).map fun ds => (numberIn 8 ds : Int)
  | '0' :: 'b' :: ds => (digits? 2 ds).map fun ds => (numberIn 2 ds : Int)
  | _ =>
    let (negative, ds) := takeSign word
    (wholeDigits? ds).map fun ds =>
      if negative then -(numberIn 10 ds : Int) else numberIn 10 ds

/-- A float: a whole part, then a fraction, an exponent or both; or an infinity, or no number. A
number too large for a float is refused. -/
def float? (word : List Char) : Option Float :=
  let (negative, rest) := takeSign word
  if rest = ['i', 'n', 'f'] ∨ rest = ['n', 'a', 'n'] then
    (Binary64.ofString? (String.ofList rest)).map fun x => if negative then -x else x
  else do
    let isMark (c : Char) : Bool := c = 'e' || c = 'E'
    let mantissa := rest.takeWhile (!isMark ·)
    let whole ← wholeDigits? (mantissa.takeWhile (· != '.'))
    let fraction ← match mantissa.dropWhile (· != '.') with
      | [] => some []
      | _ :: ds => digits? 10 ds
    let exponent ← match rest.dropWhile (!isMark ·) with
      | [] => some 0
      | _ :: e =>
        let (down, ds) := takeSign e
        (digits? 10 ds).map fun ds => if down then -(numberIn 10 ds : Int) else numberIn 10 ds
    let x := Binary64.ofDecimal negative (numberIn 10 (whole ++ fraction))
      (exponent - fraction.length)
    -- infinities are written by name, never by a large exponent
    if x.isInf then none else some x

/-- A scalar other than a string. A whole number that fits into 128 bits neither with nor without
sign is refused. -/
def scalar? (word : List Char) : Option Toml :=
  if word = "true".toList then some (.bool true)
  else if word = "false".toList then some (.bool false)
  else
    match int? word with
    | some n => if -(twoTo 127) ≤ n ∧ n < twoTo 128 then some (.int n) else none
    | none =>
      if word = "-nan".toList then some .negativeNaN
      else ((float? word).map .float).or ((datetime? word).map .datetime)

end MarketAlerts.Toml
