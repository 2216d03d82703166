import LineCalc.Decimal.Numeral
import LineCalc.Json.Writer
import LineCalc.Value.Format

/-!
# Display precision

A precision is a count of decimals from 0 to 15. A client may also give a truth value, which is
taken as 0 or 1 wherever two precisions are compared; an amount that has to be written with just so
many decimals then cannot be shown.
-/

namespace LineCalc

/-- A display precision. -/
inductive Precision
  | decimals (n : Nat)
  | flag (b : Bool)
deriving DecidableEq, Repr

namespace Precision

/-- The precision of a new session. -/
def default : Precision := .decimals defaultPrecision

/-- The precision that a client gives. -/
def ofJson (j : Json) : Except Fault Precision :=
  match j with
  | .integer n =>
    if 0 ≤ n ∧ n ≤ maxPrecision then .ok (.decimals n.toNat)
    else .error (.precisionOutOfRange j.display)
  | .bool b => .ok (.flag b)
  | _ => .error (.precisionOutOfRange j.display)

/-- The precision as it was given. -/
def toJson : Precision → Json
  | decimals n => .integer n
  | flag b => .bool b

/-- The precision as a count. -/
def count : Precision → Nat
  | decimals n => n
  | flag b => b.toNat

/-- The precision that a text states. -/
def ofText (text : String) : Except Fault Precision :=
  match Decimal.readInteger text with
  | .ok n => ofJson (.integer n)
  | .error .malformed => .error (.notAnInteger text)
  | .error (.tooLong digits) => .error (.integerTooLong digits)

end Precision

/-- A plain amount is shown with exactly as many decimals as the precision says. -/
def isRounded (n : Float) : Bool :=
  n.isFinite && !(Decimal.isWhole n && n.abs < wholeLimit) && n.abs ≥ 1

/-- The precision alone decides how many decimals the value is shown with. -/
def Value.needsPrecision : Value → Bool
  | .amount n .plain | .amount n (.unit _) | .amount n (.metal _) => isRounded n
  | .amount n .percent => isRounded (n * 100)
  | _ => false

/-- The text of a value at a precision that a client gave. -/
def Value.formatAt (v : Value) (p : Precision) : Except Fault String :=
  match p with
  | .decimals n => .ok (v.format n)
  | .flag b => if v.needsPrecision then .error .missingPrecision else .ok (v.format b.toNat)

end LineCalc
