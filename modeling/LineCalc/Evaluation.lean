import LineCalc.Evaluation.Builtin
import LineCalc.Evaluation.Conversion

/-!
# Evaluation

The value of an expression, by recursion on its tree. What is wrong with a part is the value of the
whole; the parts are looked at from left to right, so the first problem wins.
-/

namespace LineCalc

/-- What an expression is evaluated in. -/
structure Scope where
  /-- The value of a name, if it has one. -/
  find : String → Option Value
  /-- The value of the last line that had an amount; empty before there is one. -/
  previous : Value
  /-- A name without a value is a problem; otherwise it counts as zero. -/
  strict : Bool
  rates : RateTable

/-- The value of a name. -/
def Scope.resolve (s : Scope) (name : String) : Value :=
  match s.find name with
  | some v => v
  | none => if s.strict then .error (.undefinedName name) else .number 0

/-- A share of a value. -/
def Value.share (fraction : Float) : Value → Value
  | .error p => .error p
  | base =>
    let base := base.asOperand
    (base.withAmount (base.magnitude * fraction)).checked

/-- An operator applied to the previous value. Without one only the sign of the operand counts. -/
def Scope.resume (s : Scope) (op : BinaryOp) (operand : Value) : Except Fault Value :=
  if s.previous.isEmpty then .ok (if op == .sub then operand.negate else operand)
  else s.previous.apply s.rates op operand

mutual

/-- The value of an expression. -/
def Expr.eval (s : Scope) : Expr → Except Fault Value
  | .literal x d _ => .ok (.amount x d)
  | .name n => .ok (s.resolve n)
  | .binary left op right => do
    match ← left.eval s with
    | .error p => return .error p
    | v => v.apply s.rates op (← right.eval s)
  | .signed .minus e => (e.eval s).map Value.negate
  | .signed .plus e => e.eval s
  | .percentOf fraction _ base => (base.eval s).map (Value.share fraction)
  | .conversion e target => (e.eval s).map fun v => v.convertTo s.rates target
  | .call function args => do
    match ← evalArgs s args with
    | .error p => return .error p
    | .ok values =>
      let name := Text.lower function
      match Builtin.ofName? name with
      | some f => f.apply name values
      | none => return .error (.unknownFunction function)
  | .group e => e.eval s
  | .resume op e => do s.resume op (← e.eval s)
  | .resumeConversion target =>
    .ok (if s.previous.isEmpty then .error .nothingToConvert
      else s.previous.convertTo s.rates target)

/-- The values of arguments, or the first problem among them. -/
def evalArgs (s : Scope) : List Expr → Except Fault (Except Problem (List Value))
  | [] => .ok (.ok [])
  | e :: es => do
    match ← e.eval s with
    | .error p => return .error p
    | v =>
      match ← evalArgs s es with
      | .error p => return .error p
      | .ok vs => return .ok (v.asOperand :: vs)

end

end LineCalc
