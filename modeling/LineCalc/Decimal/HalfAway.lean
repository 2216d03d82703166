import LineCalc.Decimal.Fixed
import LineCalc.Decimal.Numeral

/-!
# Rounding to a power of ten

A double is rounded by its shortest decimal text, not by its binary value: `2.675` rounded to two
places is `2.68`, as the text says, although the double lies below. A half goes away from zero. The
decimal arithmetic behind it has limits: 28 digits, and powers of ten up to `10^999999`.
-/

namespace LineCalc.Decimal

/-- The most digits a rounded decimal may have. -/
def mostDigits : Nat := 28

/-- The greatest power of ten. -/
def mostExponent : Int := 999999

/-- The farthest that one power of ten may be moved at once. -/
def farthestShift : Int := 2 * (mostExponent + mostDigits)

/-- The power of ten to round to is too great, although not too far away. -/
def unitIsTooGreat (places : Int) : Bool :=
  -places > mostExponent && places.natAbs ≤ farthestShift

theorem unitIsTooGreat_iff {places : Int} :
    unitIsTooGreat places = true ↔ -2000054 ≤ places ∧ places < -999999 := by
  rw [unitIsTooGreat, Bool.and_eq_true, decide_eq_true_iff, decide_eq_true_iff]
  simp only [farthestShift, mostExponent, mostDigits]
  omega

/-- `digits · 10^exponent` in units of `10^unit`, a half going away from zero. -/
def Scientific.inUnits (s : Scientific) (unit : Int) : Nat :=
  let shift := s.exponent - unit
  if shift ≥ 0 then s.digits * tenTo shift.toNat
  else roundDiv .awayFromZero s.digits (tenTo (-shift).toNat)

/-- The place of the first digit of a decimal, `0` for the units; zero counts as one digit. -/
def Scientific.firstPlace (s : Scientific) : Int :=
  s.exponent + (digitChars s.digits).length - 1

/-- A finite double rounded to `places` decimals, or to tens, hundreds and so on for negative
`places`. Nothing if the decimal does not fit. -/
def Binary.roundHalfAway? (b : Binary) (places : Int) : Option Float :=
  let unit := -places
  if unit.natAbs > farthestShift then none
  else
    let s := shortest b
    if s.digits == 0 then some b.toFloat
    else if s.firstPlace - unit + 1 > mostDigits then none
    else
      let n := s.inUnits unit
      if digitCount n > mostDigits then none
      else
        let x := nearestFloat n unit
        some (if b.negative then -x else x)

/-- A double rounded to `places` decimals. One that does not fit stays as it is; nothing comes of a
power of ten that is too great. -/
def roundHalfAway? (x : Float) (places : Int) : Option Float :=
  if unitIsTooGreat places then none
  else some (((binary? x).bind (·.roundHalfAway? places)).getD x)

end LineCalc.Decimal
