import MarketAlerts.Json.Basic
import MarketAlerts.Power

/-!
# Reading JSON text

`Json.parse?` reads one value, with blanks around it and nothing else. Arrays and objects nest at
most 127 deep. Escapes in strings must form whole characters, and control characters must be
escaped.

Where the text is to be a record, members other than its fields are passed over. They must be well
formed, and that is all: they nest as deep as they like, and their escapes need not form whole
characters.

Numbers without fraction and exponent that fit into 64 bits are exact. Of all others the first
digits that fit into 64 bits are taken as a binary float and scaled by a power of ten; a number too
large for a float is infinite.
-/

namespace MarketAlerts.Json

/-- Skips blanks: space, tab, line feed and carriage return. -/
def skipBlanks : List Char → List Char
  | c :: rest =>
    if c = ' ' ∨ c = '\n' ∨ c = '\t' ∨ c = '\r' then skipBlanks rest else c :: rest
  | [] => []

/-- The value of a decimal digit. -/
def digit? (c : Char) : Option Nat :=
  if '0' ≤ c ∧ c ≤ '9' then some (c.toNat - '0'.toNat) else none

/-- The value of a hexadecimal digit. -/
def hexDigit? (c : Char) : Option Nat :=
  if '0' ≤ c ∧ c ≤ '9' then some (c.toNat - '0'.toNat)
  else if 'a' ≤ c ∧ c ≤ 'f' then some (c.toNat - 'a'.toNat + 10)
  else if 'A' ≤ c ∧ c ≤ 'F' then some (c.toNat - 'A'.toNat + 10)
  else none

/-! ### Numbers -/

/-- A number while it is read: `significand * 10 ^ power`, where the significand stays below
`2 ^ 64` and `full` says that further digits no longer fit. -/
structure NumberScan where
  /-- The digits that fit. -/
  significand : Nat
  /-- The power of ten. -/
  power : Int
  /-- Whether digits have been left out. -/
  full : Bool

/-- Reads digits before the point. A digit left out raises the power. -/
def NumberScan.whole (s : NumberScan) : List Char → NumberScan × List Char
  | [] => (s, [])
  | c :: rest =>
    match digit? c with
    | none => (s, c :: rest)
    | some d =>
      let n := s.significand * 10 + d
      if s.full ∨ twoTo 64 ≤ n then
        NumberScan.whole { s with power := s.power + 1, full := true } rest
      else NumberScan.whole { s with significand := n } rest

/-- Reads digits after the point. From the first one that does not fit, digits are ignored. -/
def NumberScan.fraction (s : NumberScan) (ignore : Bool) : List Char → NumberScan × List Char
  | [] => (s, [])
  | c :: rest =>
    match digit? c with
    | none => (s, c :: rest)
    | some d =>
      let n := s.significand * 10 + d
      if ignore ∨ twoTo 64 ≤ n then s.fraction true rest
      else NumberScan.fraction { s with significand := n, power := s.power - 1 } false rest

/-- The power `10 ^ n` as a float. -/
def floatTenTo (n : Nat) : Float := Float.ofScientific 1 false n

/-- The float of a scanned number, infinite when it is too large. Divisors beyond `10 ^ 308` are
taken in steps. -/
def NumberScan.toFloat (s : NumberScan) : Float :=
  let f := Float.ofNat s.significand
  if s.significand = 0 then 0
  else if 308 < s.power then 1 / 0
  else if 0 ≤ s.power then f * floatTenTo s.power.toNat
  else down 4 f (-s.power).toNat
where
  /-- Divides by `10 ^ n` in at most `steps + 1` divisions. -/
  down : Nat → Float → Nat → Float
    | 0, f, n => if n ≤ 308 then f / floatTenTo n else 0
    | steps + 1, f, n =>
      if n ≤ 308 then f / floatTenTo n
      else if f == 0 then f
      else down steps (f / floatTenTo 308) (n - 308)

/-- The digits of an exponent, as a number. -/
def exponentDigits : List Char → Nat → Nat × List Char
  | [], n => (n, [])
  | c :: rest, n =>
    match digit? c with
    | none => (n, c :: rest)
    | some d => exponentDigits rest (n * 10 + d)

/-- Reads what follows the digits of a number and gives it its sign. -/
def NumberScan.finish? (s : NumberScan) (negative : Bool) (isWhole : Bool) (rest : List Char) :
    Option (Number × List Char) :=
  let signed (x : Float) : Number := .float (if negative then -x else x)
  match rest with
  | c :: rest' =>
    if c = 'e' ∨ c = 'E' then
      let (down, digits) := match rest' with
        | '-' :: r => (true, r)
        | '+' :: r => (false, r)
        | r => (false, r)
      match digits with
      | [] => none
      | d :: _ =>
        if (digit? d).isNone then none
        else
          -- any exponent makes a float, also of a whole number
          let (e, rest'') := exponentDigits digits 0
          let power : Int := if down then s.power - e else s.power + e
          some (signed (NumberScan.toFloat { s with power }), rest'')
    else plain signed rest
  | [] => plain signed []
where
  /-- A number without exponent. -/
  plain (signed : Float → Number) (rest : List Char) : Option (Number × List Char) :=
    if isWhole ∧ !s.full then
      if negative then
        if 0 < s.significand ∧ s.significand ≤ twoTo 63 then
          some (.int (-(s.significand : Int)), rest)
        else some (signed (Float.ofNat s.significand), rest)
      else some (.int s.significand, rest)
    else some (signed s.toFloat, rest)

/-- Reads a number without its sign: no leading zeros, and digits on both sides of a point. -/
def number? (negative : Bool) (text : List Char) : Option (Number × List Char) :=
  match text with
  | '0' :: c :: rest =>
    if (digit? c).isSome then none else fractional negative ⟨0, 0, false⟩ (c :: rest)
  | c :: rest =>
    match digit? c with
    | none => none
    | some d =>
      let (s, rest) := NumberScan.whole ⟨d, 0, false⟩ rest
      fractional negative s rest
  | [] => none
where
  /-- Reads an optional fraction and what follows. -/
  fractional (negative : Bool) (s : NumberScan) (rest : List Char) :
      Option (Number × List Char) :=
    match rest with
    | '.' :: c :: rest' =>
      if (digit? c).isNone then none
      else
        let (s, rest'') := s.fraction false (c :: rest')
        s.finish? negative false rest''
    | '.' :: [] => none
    | rest => s.finish? negative true rest

/-! ### Strings -/

/-- Four hexadecimal digits. -/
def hex4? : List Char → Option (Nat × List Char)
  | a :: b :: c :: d :: rest => do
    let a ← hexDigit? a
    let b ← hexDigit? b
    let c ← hexDigit? c
    let d ← hexDigit? d
    return (((a * 16 + b) * 16 + c) * 16 + d, rest)
  | _ => none

/-- The character after a backslash and the characters that follow it. -/
def escape? : List Char → Option (Char × List Char)
  | '"' :: rest => some ('"', rest)
  | '\\' :: rest => some ('\\', rest)
  | '/' :: rest => some ('/', rest)
  | 'b' :: rest => some ('\x08', rest)
  | 'f' :: rest => some ('\x0c', rest)
  | 'n' :: rest => some ('\n', rest)
  | 'r' :: rest => some ('\r', rest)
  | 't' :: rest => some ('\t', rest)
  | 'u' :: rest => do
    let (n, rest) ← hex4? rest
    -- A character beyond 16 bits is written as a pair of units, the high one first.
    if 0xDC00 ≤ n ∧ n < 0xE000 then none
    else if 0xD800 ≤ n ∧ n < 0xDC00 then
      match rest with
      | '\\' :: 'u' :: rest =>
        let (m, rest) ← hex4? rest
        if 0xDC00 ≤ m ∧ m < 0xE000 then
          some (Char.ofNat (0x10000 + (n - 0xD800) * 0x400 + (m - 0xDC00)), rest)
        else none
      | _ => none
    else some (Char.ofNat n, rest)
  | _ => none

/-- Reads a string after its opening quote; `read` holds the characters so far, last first, and
`fuel` bounds the number of characters. -/
def stringBody? : Nat → List Char → List Char → Option (String × List Char)
  | 0, _, _ => none
  | fuel + 1, read, text =>
    match text with
    | [] => none
    | '"' :: rest => some (String.ofList read.reverse, rest)
    | '\\' :: rest =>
      match escape? rest with
      | none => none
      | some (c, rest) => stringBody? fuel (c :: read) rest
    | c :: rest => if c.toNat < 0x20 then none else stringBody? fuel (c :: read) rest

/-! ### Passing over values -/

/-- Reads a literal word. -/
def word? (expected : List Char) (text : List Char) : Option (List Char) :=
  if text.take expected.length = expected then some (text.drop expected.length) else none

/-- Passes over a string after its opening quote. -/
def skipString? : List Char → Option (List Char)
  | [] => none
  | '"' :: rest => some rest
  | '\\' :: 'u' :: a :: b :: c :: d :: rest =>
    if [a, b, c, d].all fun h => (hexDigit? h).isSome then skipString? rest else none
  | '\\' :: c :: rest =>
    if ['"', '\\', '/', 'b', 'f', 'n', 'r', 't'].contains c then skipString? rest else none
  | c :: rest => if c = '\\' ∨ c.toNat < 0x20 then none else skipString? rest

/-- Passes over a value that is neither an array nor an object. -/
def skipPlain? : List Char → Option (List Char)
  | 'n' :: rest => word? ['u', 'l', 'l'] rest
  | 't' :: rest => word? ['r', 'u', 'e'] rest
  | 'f' :: rest => word? ['a', 'l', 's', 'e'] rest
  | '"' :: rest => skipString? rest
  | '-' :: rest => (number? true rest).map (·.2)
  | rest => (number? false rest).map (·.2)

/-- What comes next in a value that is passed over. -/
inductive Expected where
  /-- A value. -/
  | value
  /-- A member of an object. -/
  | member
  /-- What follows a value. -/
  | more

/-- Passes over the rest of a value; `closing` holds the brackets that are still to come, the
innermost first, and `fuel` bounds the length. -/
def skip? : Nat → Expected → List Char → List Char → Option (List Char)
  | 0, _, _, _ => none
  | fuel + 1, .value, closing, text =>
    match skipBlanks text with
    | '[' :: rest =>
      match skipBlanks rest with
      | ']' :: rest => skip? fuel .more closing rest
      | rest => skip? fuel .value (']' :: closing) rest
    | '{' :: rest =>
      match skipBlanks rest with
      | '}' :: rest => skip? fuel .more closing rest
      | rest => skip? fuel .member ('}' :: closing) rest
    | rest =>
      match skipPlain? rest with
      | some rest => skip? fuel .more closing rest
      | none => none
  | fuel + 1, .member, closing, text =>
    match skipBlanks text with
    | '"' :: rest =>
      match (skipString? rest).map skipBlanks with
      | some (':' :: rest) => skip? fuel .value closing rest
      | _ => none
    | _ => none
  | _ + 1, .more, [], text => some text
  | fuel + 1, .more, close :: closing, text =>
    match skipBlanks text with
    | [] => none
    | c :: rest =>
      if c = close then skip? fuel .more closing rest
      -- the bracket that is to come says what the comma separates
      else if c = ',' then
        skip? fuel (if close = ']' then .value else .member) (close :: closing) rest
      else none

/-! ### Values -/

/-- Which members of a text are read. -/
inductive Scope where
  /-- All of them. -/
  | whole
  /-- The text is a record with these fields. -/
  | record (fields : List String)
  /-- The text is an array of records with these fields. -/
  | records (fields : List String)

namespace Scope

/-- Whether the member of an object is read. -/
def reads (key : String) : Scope → Bool
  | record fields => fields.contains key
  | _ => true

/-- What is read of the elements of an array. -/
def ofElements : Scope → Scope
  | records fields => record fields
  | _ => whole

end Scope

mutual

/-- Reads a value with blanks before it. `depth` bounds the nesting, `fuel` the length. -/
def value? : Nat → Nat → Scope → List Char → Option (Json × List Char)
  | 0, _, _, _ => none
  | fuel + 1, depth, scope, text =>
    match skipBlanks text with
    | 'n' :: rest => (word? ['u', 'l', 'l'] rest).map fun r => (.null, r)
    | 't' :: rest => (word? ['r', 'u', 'e'] rest).map fun r => (.bool true, r)
    | 'f' :: rest => (word? ['a', 'l', 's', 'e'] rest).map fun r => (.bool false, r)
    | '"' :: rest => (stringBody? fuel [] rest).map fun (s, r) => (.str s, r)
    | '-' :: rest => (number? true rest).map fun (n, r) => (.num n, r)
    | '[' :: rest =>
      match depth with
      | 0 => none
      | depth + 1 =>
        match skipBlanks rest with
        | ']' :: rest => some (.arr [], rest)
        | rest => (elements? fuel depth scope.ofElements rest []).map fun (vs, r) => (.arr vs, r)
    | '{' :: rest =>
      match depth with
      | 0 => none
      | depth + 1 =>
        match skipBlanks rest with
        | '}' :: rest => some (.obj [], rest)
        | rest => (members? fuel depth scope rest []).map fun (ms, r) => (.obj ms, r)
    | rest => (number? false rest).map fun (n, r) => (.num n, r)

/-- Reads the elements of an array up to its end; `read` holds those so far, last first. -/
def elements? : Nat → Nat → Scope → List Char → List Json → Option (List Json × List Char)
  | 0, _, _, _, _ => none
  | fuel + 1, depth, scope, text, read =>
    match value? fuel depth scope text with
    | none => none
    | some (v, rest) =>
      match skipBlanks rest with
      | ',' :: rest => elements? fuel depth scope rest (v :: read)
      | ']' :: rest => some ((v :: read).reverse, rest)
      | _ => none

/-- Reads the members of an object up to its end; `read` holds those so far, last first. -/
def members? : Nat → Nat → Scope → List Char → List (String × Json) →
    Option (List (String × Json) × List Char)
  | 0, _, _, _, _ => none
  | fuel + 1, depth, scope, text, read =>
    match readMember? fuel depth scope (skipBlanks text) read with
    | none => none
    | some (read, rest) =>
      match skipBlanks rest with
      | ',' :: rest => members? fuel depth scope rest read
      | '}' :: rest => some (read.reverse, rest)
      | _ => none

/-- Reads one member of an object and puts it before those in `read`, unless it is passed over. -/
def readMember? : Nat → Nat → Scope → List Char → List (String × Json) →
    Option (List (String × Json) × List Char)
  | 0, _, _, _, _ => none
  | fuel + 1, depth, scope, text, read =>
    match text with
    | '"' :: rest =>
      match stringBody? fuel [] rest with
      | none => none
      | some (key, rest) =>
        match skipBlanks rest with
        | ':' :: rest =>
          if scope.reads key then
            (value? fuel depth .whole rest).map fun (v, rest) => ((key, v) :: read, rest)
          -- of other members it only matters where they end
          else (skip? fuel .value [] rest).map fun rest => (read, rest)
        | _ => none
    | _ => none

end

/-- Reads a whole text as one value. -/
def parse? (text : String) (scope : Scope := .whole) : Option Json :=
  let cs := text.toList
  match value? (3 * cs.length + 3) 127 scope cs with
  | some (v, rest) => if (skipBlanks rest).isEmpty then some v else none
  | none => none

end MarketAlerts.Json
