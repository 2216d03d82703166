import LineCalc.Decimal.Binary

/-!
# Remainders

The remainder of a truncated division of doubles, which is always exact. It has the sign of the
number divided.
-/

namespace LineCalc.Decimal

/-- The remainder of two finite numbers, the second not zero. -/
def Binary.mod (a b : Binary) : Binary :=
  let e := min a.exponent b.exponent
  let scaled (x : Binary) : Nat := x.mantissa * twoTo (x.exponent - e).toNat
  ⟨a.negative, scaled a % scaled b, e⟩

/-- The remainder of `x` by `y`. Nothing where `x` is infinite or `y` is zero and neither is NaN; an
infinite `y` leaves `x` as it is. -/
def remainder? (x y : Float) : Option Float :=
  if x.isNaN || y.isNaN then some (x + y)
  else match binary? x, binary? y with
    | some a, some b => if b.mantissa == 0 then none else some (a.mod b).toFloat
    | some _, none => some x
    | none, _ => none

end LineCalc.Decimal
