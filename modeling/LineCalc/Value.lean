import LineCalc.Catalog.Denomination
import LineCalc.Problem

/-!
# Values

The result of a line: nothing, a problem, or an amount of some denomination.
-/

namespace LineCalc

/-- The kinds of values. -/
inductive ValueKind
  | empty | number | percentage | currency | unit | metal | crypto | error
deriving DecidableEq, Repr

/-- The word for a kind. -/
def ValueKind.label : ValueKind → String
  | .empty => "empty"
  | .number => "number"
  | .percentage => "percentage"
  | .currency => "currency"
  | .unit => "unit"
  | .metal => "metal"
  | .crypto => "crypto"
  | .error => "error"

/-- The kind of the amounts of a denomination. -/
def Denomination.kind : Denomination → ValueKind
  | .plain => .number
  | .percent => .percentage
  | .currency _ => .currency
  | .unit _ => .unit
  | .metal _ => .metal
  | .crypto _ => .crypto

/-- A value. A percentage is held as a fraction: `15%` is the amount `0.15`. -/
inductive Value
  | empty
  | error (problem : Problem)
  | amount (n : Float) (denomination : Denomination)
deriving DecidableEq, Repr, Inhabited

namespace Value

/-- A plain number. -/
def number (n : Float) : Value := .amount n .plain

/-- The kind of a value. -/
def kind : Value → ValueKind
  | empty => .empty
  | error _ => .error
  | amount _ d => d.kind

/-- The amount, zero where there is none. -/
def magnitude : Value → Float
  | amount n _ => n
  | empty | error _ => 0

/-- What the value is an amount of. -/
def denomination? : Value → Option Denomination
  | amount _ d => some d
  | empty | error _ => none

/-- The code of what the value is an amount of, empty where there is none. -/
def code (v : Value) : String := (v.denomination?.map (·.code)).getD ""

/-- The value is a problem. -/
def isError : Value → Bool
  | error _ => true
  | empty | amount .. => false

/-- The value is an amount. -/
def isValid : Value → Bool
  | amount .. => true
  | empty | error _ => false

/-- The value is nothing. -/
def isEmpty : Value → Bool
  | empty => true
  | error _ | amount .. => false

/-- The value is a plain number. -/
def isNumber (v : Value) : Bool := v.kind == .number

/-- The value is converted by exchange rates. -/
def isRated (v : Value) : Bool := v.denomination?.any (·.isRated)

/-- The rank of what the value is an amount of; zero without an amount. -/
def rank (v : Value) : Nat := (v.denomination?.map (·.rank)).getD 0

/-- Two values are added without a conversion. -/
def combinesWith (a b : Value) : Bool :=
  a.isNumber || b.isNumber || a.kind == b.kind && a.code == b.code

/-- The kind of the higher ranked of two values, of the first if they rank the same. -/
def resultKind (a b : Value) : ValueKind := if a.rank ≥ b.rank then a.kind else b.kind

/-- The same value with another amount, if it has one. -/
def withAmount (v : Value) (n : Float) : Value :=
  match v with
  | amount _ d => amount n d
  | empty => empty
  | error p => error p

/-- The value with the opposite amount. -/
def negate (v : Value) : Value := v.withAmount (-v.magnitude)

@[simp] theorem magnitude_amount (n : Float) (d : Denomination) : (amount n d).magnitude = n := rfl

@[simp] theorem withAmount_amount (n m : Float) (d : Denomination) :
    (amount n d).withAmount m = amount m d := rfl

end Value

end LineCalc
