/-!
# Powers of two and of ten

The numbers of a word are bounded by powers of two, and the places of a decimal number are counted
in powers of ten.
-/

namespace MarketAlerts

/-- Two to the power `n`. -/
def twoTo (n : Nat) : Nat := Nat.pow 2 n

/-- Ten to the power `n`. -/
def tenTo (n : Nat) : Nat := Nat.pow 10 n

theorem twoTo_pos (n : Nat) : 0 < twoTo n := Nat.pow_pos (by decide)

/-- The bound of a coefficient. -/
theorem twoTo_96 : twoTo 96 = 79228162514264337593543950336 := rfl

theorem tenTo_zero : tenTo 0 = 1 := rfl

theorem tenTo_pos (n : Nat) : 0 < tenTo n := Nat.pow_pos (by decide)

/-- Places are counted together. -/
theorem tenTo_add (m n : Nat) : tenTo (m + n) = tenTo m * tenTo n := Nat.pow_add ..

end MarketAlerts
