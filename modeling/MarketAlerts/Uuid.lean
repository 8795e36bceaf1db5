import MarketAlerts.Power

/-!
# Universally unique identifiers

An identifier of 128 bits, written as 32 hexadecimal digits in groups of 8, 4, 4, 4 and 12. It is
also read without hyphens, between braces and as a `urn:uuid:` name.
-/

namespace MarketAlerts

/-- An identifier of 128 bits. -/
structure Uuid where
  /-- The bits as a number. -/
  value : Nat
  /-- There are no more than 128 of them. -/
  value_lt : value < twoTo 128
deriving DecidableEq

namespace Uuid

/-- The identifier with this number, modulo `2 ^ 128`. -/
def ofNat (n : Nat) : Uuid := ⟨n % twoTo 128, Nat.mod_lt _ (by decide)⟩

/-- The identifier whose bits are all zero. -/
def nil : Uuid := ofNat 0

instance : Inhabited Uuid := ⟨nil⟩

/-- The random (version 4) identifier of 122 bits of chance, modulo `2 ^ 122`. -/
def ofChance (n : Nat) : Uuid :=
  let high := n / twoTo 74 % twoTo 48
  let middle := n / twoTo 62 % twoTo 12
  ofNat (high * twoTo 80 + 4 * twoTo 76 + middle * twoTo 64 + 2 * twoTo 62 + n % twoTo 62)

/-- Whether the identifier is marked as random. -/
def isRandom (u : Uuid) : Bool := u.value / twoTo 76 % 16 == 4

/-- Where fresh identifiers come from: the chance for the next one. Consecutive identifiers
differ. -/
structure Supply where
  /-- The chance for the next identifier. -/
  chance : Nat
deriving DecidableEq, Inhabited

/-- The next identifier. -/
def Supply.head (s : Supply) : Uuid := ofChance s.chance

/-- The supply after `n` identifiers. -/
def Supply.drop (s : Supply) (n : Nat) : Supply := ⟨s.chance + n⟩

/-- A supply from the other half of all chances. -/
def Supply.apart (s : Supply) : Supply := ⟨s.chance + twoTo 121⟩

/-- The last `count` hexadecimal digits of a number. -/
def hexDigits (count n : Nat) : List Char :=
  (List.range count).reverse.map fun i => Nat.digitChar (n / twoTo (4 * i) % 16)

/-- Lower-case digits in groups of 8, 4, 4, 4 and 12. -/
protected def toString (u : Uuid) : String :=
  let ds := hexDigits 32 u.value
  let group (start count : Nat) : String := String.ofList ((ds.drop start).take count)
  String.intercalate "-" [group 0 8, group 8 4, group 12 4, group 16 4, group 20 12]

instance : ToString Uuid := ⟨Uuid.toString⟩

/-- The value of a hexadecimal digit. -/
def hexValue? (c : Char) : Option Nat :=
  if '0' ≤ c ∧ c ≤ '9' then some (c.toNat - '0'.toNat)
  else if 'a' ≤ c ∧ c ≤ 'f' then some (c.toNat - 'a'.toNat + 10)
  else if 'A' ≤ c ∧ c ≤ 'F' then some (c.toNat - 'A'.toNat + 10)
  else none

/-- The number of some hexadecimal digits. -/
def hexNumber? (cs : List Char) : Option Nat :=
  cs.foldlM (fun n c => (hexValue? c).map (n * 16 + ·)) 0

/-- The 32 digits of a text with hyphens after 8, 12, 16 and 20 of them. -/
def grouped? (cs : List Char) : Option (List Char) :=
  let hyphen (i : Nat) : Bool := cs[i]? = some '-'
  if cs.length = 36 ∧ hyphen 8 ∧ hyphen 13 ∧ hyphen 18 ∧ hyphen 23 then
    some (cs.take 8 ++ (cs.drop 9).take 4 ++ (cs.drop 14).take 4 ++ (cs.drop 19).take 4
      ++ cs.drop 24)
  else none

/-- An identifier in any of its written forms. -/
def ofString? (text : String) : Option Uuid := do
  let cs := text.toList
  let urn := "urn:uuid:".toList
  let digits ←
    -- the length alone decides which form it must be
    if cs.length = 32 then some cs
    else if cs.length = 36 then grouped? cs
    else if cs.length = 38 ∧ cs.head? = some '{' ∧ cs.getLast? = some '}' then
      grouped? ((cs.drop 1).dropLast)
    else if cs.length = 45 ∧ cs.take 9 = urn then grouped? (cs.drop 9)
    else none
  let n ← hexNumber? digits
  if h : n < twoTo 128 then some ⟨n, h⟩ else none

end Uuid

end MarketAlerts
