/-!
# Powers of two and ten

The two bases that numbers are written in here.
-/

namespace LineCalc.Decimal

/-- The power of two. -/
abbrev twoTo (n : Nat) : Nat := Nat.pow 2 n

/-- The power of ten. -/
abbrev tenTo (n : Nat) : Nat := Nat.pow 10 n

end LineCalc.Decimal
