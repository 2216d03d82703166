import LineCalc.Decimal.Remainder
import LineCalc.Expr
import LineCalc.Fault
import LineCalc.Rates.Cache
import LineCalc.Catalog.Conversion

/-!
# Operators on values

What the six operators make of two values. A problem on either side is the result, that on the left
first, and an empty value counts as zero.

A plain number takes on what the other side is an amount of. A percentage added to or taken from a
value changes it by that share of itself. Otherwise both sides of a sum must be of one thing, or
units of one quantity, or convertible by rates: of two rated values the higher ranked decides what
the sum is an amount of. There are no products of units: a product or quotient of two amounts that
are not plain numbers is a plain number.
-/

namespace LineCalc.Value

/-- A value whose amount is finite; a problem in place of any other. -/
def checked (v : Value) : Value :=
  if v.magnitude.isFinite then v else .error .invalidResult

/-- A value as an operand: an empty one counts as zero. -/
def asOperand : Value → Value
  | .empty => .number 0
  | v => v

/-- A value raised to a power. The result is a plain number. -/
def power (base exponent : Float) : Value :=
  let result := base ^ exponent
  if result.isInf && base.isFinite && exponent.isFinite && base != 0 then .error .overflow
  else checked (.number result)

/-- The share `1 + p` or `1 - p` that remains of a value changed by a percentage. -/
def shareAfter (op : BinaryOp) (fraction : Float) : Float :=
  if op == .sub then 1 + -fraction else 1 + fraction

/-- The sum or difference of two rated values of different things. -/
def combineRated (rates : RateTable) (f : Float → Float → Float) (left right : Value) : Value :=
  if right.rank > left.rank then
    match rates.convertValue? left right.code with
    | none => .error (.noRate left.code right.code)
    | some v => checked (right.withAmount (f v.magnitude right.magnitude))
  else
    match rates.convertValue? right left.code with
    | none => .error (.noRate right.code left.code)
    | some v => checked (left.withAmount (f left.magnitude v.magnitude))

/-- The sum or difference of two amounts, `f` being that of their numbers. -/
def combine (rates : RateTable) (f : Float → Float → Float) (left right : Value) : Value :=
  if left.isNumber then checked (right.withAmount (f left.magnitude right.magnitude))
  else if right.isNumber || left.combinesWith right then
    checked (left.withAmount (f left.magnitude right.magnitude))
  else match left, right with
    | .amount n (.unit u), .amount m (.unit w) =>
      match w.convert m u with
      | none => .error (.incompatibleUnits u.code w.code)
      | some m => checked (.amount (f n m) (.unit u))
    | _, _ =>
      if left.isRated && right.isRated then combineRated rates f left right
      else .error (.cannotCombine left.kind.label right.kind.label)

/-- The product or quotient `n` of two amounts as a value. -/
def scaled (left right : Value) (n : Float) : Value :=
  checked <|
    if left.isNumber then right.withAmount n
    else if right.isNumber then left.withAmount n
    else .number n

/-- The sum or difference of two amounts. -/
def addOrSub (rates : RateTable) (op : BinaryOp) (left right : Value) : Value :=
  if right.kind == .percentage then
    checked (left.withAmount (left.magnitude * shareAfter op right.magnitude))
  else combine rates (if op == .sub then (· - ·) else (· + ·)) left right

/-- The value of an operator applied to two amounts. -/
def applyAmounts (rates : RateTable) (op : BinaryOp) (left right : Value) : Except Fault Value :=
  let x := left.magnitude
  let y := right.magnitude
  match op with
  | .add | .sub => .ok (addOrSub rates op left right)
  | .mul => .ok (scaled left right (x * y))
  | .div => .ok (if y == 0 then .error .divisionByZero else scaled left right (x / y))
  | .mod =>
    if y == 0 then .ok (.error .remainderByZero)
    else match Decimal.remainder? x y with
      | some r => .ok (scaled left right r)
      | none => .error .infiniteRemainder
  | .pow => .ok (power x y)

/-- The value of an operator applied to two values. -/
def apply (rates : RateTable) (op : BinaryOp) (left right : Value) : Except Fault Value :=
  match left, right with
  | .error p, _ => .ok (.error p)
  | _, .error p => .ok (.error p)
  | left, right => applyAmounts rates op left.asOperand right.asOperand

end LineCalc.Value
