import MarketAlerts.Instant.Basic
import MarketAlerts.Text.Blank
import MarketAlerts.Power

/-!
# Instants as text

`Instant.toRfc3339` writes an instant in UTC with 0, 3, 6 or 9 digits of fraction, and
`Instant.toPlain` the same without fraction and with blanks. `Instant.ofRfc3339?` reads the strict
form (fixed widths); `Instant.ofLooseRfc3339?` also takes short fields, signed years, blanks
between the fields, a zone named UTC and offsets without colon.
-/

namespace MarketAlerts.Instant

open Text (isBlank skipBlanks)

/-! ### Writing -/

/-- A number with at least `width` digits. -/
def padded (width n : Nat) : String :=
  let text := toString n
  String.ofList (List.replicate (width - text.length) '0') ++ text

/-- A year: four digits, with a sign outside 0 to 9999. -/
def yearText (year : Int) : String :=
  if 0 ≤ year ∧ year ≤ 9999 then padded 4 year.toNat
  else (if year < 0 then "-" else "+") ++ padded 4 year.natAbs

/-- Year, month and day. -/
def dateText (d : Date) : String :=
  yearText d.year ++ "-" ++ padded 2 d.month ++ "-" ++ padded 2 d.day

/-- Hour, minute and second. -/
def timeText (t : Instant) : String :=
  padded 2 t.hour ++ ":" ++ padded 2 t.minute ++ ":" ++ padded 2 t.second

/-- The fraction of the second in as few groups of three digits as it needs. -/
def fractionText (nanos : Nat) : String :=
  if nanos = 0 then ""
  else if nanos % 1000000 = 0 then "." ++ padded 3 (nanos / 1000000)
  else if nanos % 1000 = 0 then "." ++ padded 6 (nanos / 1000)
  else "." ++ padded 9 nanos

/-- Date and time in UTC with the offset written out. -/
def toRfc3339 (t : Instant) : String :=
  dateText t.date ++ "T" ++ t.timeText ++ fractionText t.fraction ++ "+00:00"

/-- Date and time to the second, followed by `UTC`. -/
def toPlain (t : Instant) : String := dateText t.date ++ " " ++ t.timeText ++ " UTC"

/-! ### Reading -/

/-- The value of a decimal digit. -/
def digit? (c : Char) : Option Nat :=
  if '0' ≤ c ∧ c ≤ '9' then some (c.toNat - '0'.toNat) else none

/-- At least one and at most `most` digits, as a number, and the rest. -/
def number? (most : Nat) (text : List Char) : Option (Nat × List Char) :=
  let digits := (text.take most).takeWhile fun c => (digit? c).isSome
  if digits.isEmpty then none
  else some (digits.foldl (fun n c => n * 10 + (digit? c).getD 0) 0, text.drop digits.length)

/-- Exactly `count` digits. -/
def exactly? (count : Nat) (text : List Char) : Option (Nat × List Char) :=
  if ((text.take count).filter fun c => (digit? c).isSome).length = count then number? count text
  else none

/-- The character `c`. -/
def literal? (c : Char) : List Char → Option (List Char)
  | d :: rest => if c = d then some rest else none
  | [] => none

/-- An optional point and at least one digit of a second; digits after the ninth are skipped. -/
def fraction? : List Char → Option (Nat × List Char)
  | '.' :: rest => do
    let (n, rest') ← number? 9 rest
    let count := rest.length - rest'.length
    return (n * tenTo (9 - count), rest'.dropWhile fun c => (digit? c).isSome)
  | rest => some (0, rest)

/-- An offset from UTC in seconds: `Z`, or a sign, two digits of hours, a separator as `separator`
takes it, and two digits of minutes. -/
def offset? (separator : List Char → Option (List Char)) (text : List Char) :
    Option (Int × List Char) := do
  match text with
  | 'Z' :: rest | 'z' :: rest => return (0, rest)
  | c :: rest =>
    let negative ←
      if c = '+' then some false else if c = '-' ∨ c = '−' then some true else none
    let (hours, rest) ← exactly? 2 rest
    let rest ← separator rest
    let (minutes, rest) ← exactly? 2 rest
    -- hours are not bounded here, and fail in `ofFields?` when they make a day
    if 60 ≤ minutes then none
    let seconds : Int := hours * 3600 + minutes * 60
    return (if negative then -seconds else seconds, rest)
  | [] => none

/-- The instant of a local date and time at an offset from UTC. The second may be 60. -/
def ofFields? (d : Date) (hour minute second nanos : Nat) (offset : Int) : Option Instant := do
  if !d.isValid ∨ 24 ≤ hour ∨ 60 ≤ minute ∨ 60 < second ∨ 86400 ≤ offset.natAbs then none
  let leap := second = 60
  let seconds : Int :=
    d.toDays * 86400 + hour * 3600 + minute * 60 + (if leap then 59 else second) - offset
  if seconds < minSeconds ∨ maxSeconds < seconds then none
  return ⟨seconds, nanos + (if leap then 1000000000 else 0)⟩

/-- The mark between date and time. -/
def mark? : List Char → Option (List Char)
  | c :: rest => if c = 'T' ∨ c = 't' ∨ c = ' ' then some rest else none
  | [] => none

/-- The strict form: four digits of year, two of every other field. -/
def ofRfc3339? (text : String) : Option Instant := do
  let (year, rest) ← exactly? 4 text.toList
  let (month, rest) ← exactly? 2 (← literal? '-' rest)
  let (day, rest) ← exactly? 2 (← literal? '-' rest)
  let (hour, rest) ← exactly? 2 (← mark? rest)
  let (minute, rest) ← exactly? 2 (← literal? ':' rest)
  let (second, rest) ← exactly? 2 (← literal? ':' rest)
  let (nanos, rest) ← fraction? rest
  let (offset, rest) ← offset? (literal? ':') rest
  if !rest.isEmpty then none
  ofFields? ⟨year, month, day⟩ hour minute second nanos offset

/-- A year: up to four digits, or any number of them after a sign. -/
def looseYear? (text : List Char) : Option (Int × List Char) :=
  match skipBlanks text with
  | '-' :: rest => (number? rest.length rest).map fun (n, r) => (-(n : Int), r)
  | '+' :: rest => (number? rest.length rest).map fun (n, r) => ((n : Int), r)
  | rest => (number? 4 rest).map fun (n, r) => ((n : Int), r)

/-- A field of one or two digits with blanks before and after it. -/
def looseField? (text : List Char) : Option (Nat × List Char) :=
  (number? 2 (skipBlanks text)).map fun (n, r) => (n, skipBlanks r)

/-- The loose form. -/
def ofLooseRfc3339? (text : String) : Option Instant := do
  let (year, rest) ← looseYear? text.toList
  let (month, rest) ← looseField? (← literal? '-' (skipBlanks rest))
  let (day, rest) ← number? 2 (skipBlanks (← literal? '-' rest))
  let (hour, rest) ← looseField? (← mark? rest)
  let (minute, rest) ← looseField? (← literal? ':' rest)
  let (second, rest) ← number? 2 (skipBlanks (← literal? ':' rest))
  let (nanos, rest) ← fraction? rest
  let rest := skipBlanks rest
  -- `UTC` may stand for the offset in any case, and a colon need not separate its parts
  let (offset, rest) ←
    if (rest.take 3).map Char.toUpper = ['U', 'T', 'C'] then some (0, rest.drop 3)
    else offset? (fun cs => some (cs.dropWhile fun c => c == ':' || isBlank c)) rest
  if !(skipBlanks rest).isEmpty then none
  ofFields? ⟨year, month, day⟩ hour minute second nanos offset

end MarketAlerts.Instant
