import LineCalc.Decimal.Binary
import LineCalc.Fault

/-!
# Doubles and integers

Conversions between doubles and integers that meet a fault where there is no result.
-/

namespace LineCalc

/-- The integer toward zero from a double. -/
def integerPart (x : Float) : Except Fault Int :=
  match Decimal.truncate? x with
  | some n => .ok n
  | none => .error (if x.isNaN then .undefinedInteger else .infiniteInteger)

/-- An integer as the nearest double. -/
def doubleOfInteger (n : Int) : Except Fault Float :=
  let x := (Decimal.Binary.ofInt n 0).toFloat
  if x.isInf then .error .integerTooLarge else .ok x

end LineCalc
