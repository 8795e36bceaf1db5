import MarketAlerts.Instant.Rfc3339

/-!
# Dates and times in TOML

A date, a time, or both is kept as text. `Toml.datetime?` reads any notation that TOML admits and
gives the one in which such a value is written: a `T` before the time, digits of a fraction only as
far as the ninth and without trailing zeros, and an offset of zero with a plus sign.
-/

namespace MarketAlerts.Toml

/-- A date `YYYY-MM-DD`. -/
def date? (cs : List Char) : Option (String × List Char) := do
  let (year, rest) ← Instant.exactly? 4 cs
  let (month, rest) ← Instant.exactly? 2 (← Instant.literal? '-' rest)
  let (day, rest) ← Instant.exactly? 2 (← Instant.literal? '-' rest)
  let d : Date := ⟨year, month, day⟩
  if d.isValid then some (Instant.dateText d, rest) else none

/-- A fraction of a second without trailing zeros, of which one stays where there is nothing else.
-/
def fractionText (nanos : Nat) : String :=
  let digits := (Instant.padded 9 nanos).toList.reverse.dropWhile (· = '0')
  "." ++ (if digits.isEmpty then "0" else String.ofList digits.reverse)

/-- A time `HH:MM`, with optional seconds and fraction. -/
def time? (cs : List Char) : Option (String × List Char) := do
  let (hour, rest) ← Instant.exactly? 2 cs
  let (minute, rest) ← Instant.exactly? 2 (← Instant.literal? ':' rest)
  if 24 ≤ hour ∨ 60 ≤ minute then none
  let start := Instant.padded 2 hour ++ ":" ++ Instant.padded 2 minute
  match rest with
  | ':' :: rest =>
    let (second, rest) ← Instant.exactly? 2 rest
    let (nanos, rest') ← Instant.fraction? rest
    if 60 < second then none
    -- a fraction that is written stays, also where it is zero
    let fraction := if rest' = rest then "" else fractionText nanos
    return (start ++ ":" ++ Instant.padded 2 second ++ fraction, rest')
  | rest => return (start, rest)

/-- An offset from UTC: `Z`, or a sign and `HH:MM`. -/
def offset? (cs : List Char) : Option String := do
  match cs with
  | ['Z'] | ['z'] => return "Z"
  | c :: rest =>
    let sign ← if c = '+' then some "+" else if c = '-' then some "-" else none
    let (hour, rest) ← Instant.exactly? 2 rest
    let (minute, rest) ← Instant.exactly? 2 (← Instant.literal? ':' rest)
    if 24 ≤ hour ∨ 60 ≤ minute ∨ !rest.isEmpty then none
    let sign := if hour = 0 ∧ minute = 0 then "+" else sign
    return sign ++ Instant.padded 2 hour ++ ":" ++ Instant.padded 2 minute
  | [] => none

/-- A date, a time, or a date and a time with an optional offset. -/
def datetime? (word : List Char) : Option String :=
  match date? word with
  | some (date, []) => some date
  | some (date, rest) => do
    let (time, rest) ← time? (← Instant.mark? rest)
    if rest.isEmpty then return date ++ "T" ++ time
    return date ++ "T" ++ time ++ (← offset? rest)
  | none => do
    let (time, rest) ← time? word
    if rest.isEmpty then some time else none

end MarketAlerts.Toml
