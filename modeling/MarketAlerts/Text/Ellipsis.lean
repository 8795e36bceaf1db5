/-!
# Shortened text

`ellipsize` cuts a text to a number of characters; three dots at the end show that something is
missing.
-/

namespace MarketAlerts.Text

/-- The dots at the end of a shortened text. -/
def ellipsis : List Char := ['.', '.', '.']

/-- The characters, or the first of them and the dots if there are more than `limit`. With a limit
below three there are only so many dots. -/
def ellipsizeChars (limit : Nat) (cs : List Char) : List Char :=
  if cs.length ≤ limit then cs
  else cs.take (limit - ellipsis.length) ++ ellipsis.take limit

/-- The text, cut to at most `limit` characters. -/
def ellipsize (limit : Nat) (s : String) : String :=
  .ofList (ellipsizeChars limit s.toList)

end MarketAlerts.Text
