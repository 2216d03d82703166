import LineCalc.Decimal.Power

/-!
# Doubles as exact numbers

A finite double is `±m · 2^e` with natural `m`. All text forms of a number, exact sums, remainders
and roundings work on this form, so none of them suffers a second rounding; `ofBinary` rounds once,
to the nearest double, ties to even.
-/

namespace LineCalc.Decimal

/-- The number `±mantissa · 2^exponent`. Zero has a sign too. -/
structure Binary where
  negative : Bool
  mantissa : Nat
  exponent : Int
deriving DecidableEq, Repr

/-- The exact value of a finite double. -/
def binary? (x : Float) : Option Binary :=
  match x.toModel.unpack with
  | .finite .positive m e _ => some ⟨false, m, e⟩
  | .finite .negative m e _ => some ⟨true, m, e⟩
  | .zero .positive => some ⟨false, 0, 0⟩
  | .zero .negative => some ⟨true, 0, 0⟩
  | .infinity _ => none
  | .notANumber => none

/-- The sign bit of a double. -/
def isNegative (x : Float) : Bool :=
  x.toBits.toNat ≥ twoTo 63

namespace Binary

/-- The magnitude as a fraction with a power of two below. -/
def fraction (b : Binary) : Nat × Nat :=
  (b.mantissa * twoTo b.exponent.toNat, twoTo (-b.exponent).toNat)

/-- The magnitude without its fraction part. -/
def wholePart (b : Binary) : Nat :=
  b.fraction.1 / b.fraction.2

/-- The number is an integer. -/
def isWhole (b : Binary) : Bool :=
  b.fraction.1 % b.fraction.2 == 0

/-- The integer toward zero. -/
def truncate (b : Binary) : Int :=
  if b.negative then -(b.wholePart : Int) else b.wholePart

/-- The integer next below or equal. -/
def floor (b : Binary) : Int :=
  if b.negative && !b.isWhole then -(b.wholePart : Int) - 1 else b.truncate

/-- The integer next above or equal. -/
def ceil (b : Binary) : Int :=
  if !b.negative && !b.isWhole then (b.wholePart : Int) + 1 else b.truncate

/-- The double nearest to the number, ties to even; infinite beyond the largest double. -/
def toFloat (b : Binary) : Float :=
  let sign : Float.Model.UnpackedFloat.Sign := if b.negative then .negative else .positive
  if b.mantissa == 0 then .ofModel (.pack (.zero sign))
  else .ofModel (.pack (.round .binary64 sign b.mantissa b.exponent))

/-- The number `n · 2^e`. -/
def ofInt (n : Int) (e : Int) : Binary := ⟨n < 0, n.natAbs, e⟩

/-- The sum, exactly. A zero sum is positive. -/
def add (a b : Binary) : Binary :=
  let e := min a.exponent b.exponent
  let scaled (x : Binary) : Int :=
    let m : Int := x.mantissa * twoTo (x.exponent - e).toNat
    if x.negative then -m else m
  ofInt (scaled a + scaled b) e

end Binary

/-- The integer toward zero from a double, if it is finite. -/
def truncate? (x : Float) : Option Int := (binary? x).map Binary.truncate

/-- The double is a finite integer. -/
def isWhole (x : Float) : Bool := (binary? x).any Binary.isWhole

end LineCalc.Decimal
