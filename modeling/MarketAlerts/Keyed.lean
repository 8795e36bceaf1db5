/-!
# Lists sorted by key

A list of values under different keys is kept sorted by key, so that its order does not depend on
how it came about.
-/

namespace MarketAlerts.Keyed

/-- Puts a value into a list sorted by key, in place of one with the same key. -/
def insert {α : Type} (key : String) (value : α) : List (String × α) → List (String × α)
  | [] => [(key, value)]
  | (k, v) :: rest =>
    if key < k then (key, value) :: (k, v) :: rest
    else if key = k then (key, value) :: rest
    else (k, v) :: insert key value rest

end MarketAlerts.Keyed
