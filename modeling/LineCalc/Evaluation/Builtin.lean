import LineCalc.Decimal.ExactSum
import LineCalc.Decimal.HalfAway
import LineCalc.Decimal.Integer
import LineCalc.Evaluation.Operator

/-!
# Functions

The functions that a line may call. The aggregates keep what their first argument is an amount of;
the others work on bare numbers. Sums are exact before they are rounded to a double.
-/

namespace LineCalc

/-- The functions of any number of arguments. -/
inductive Aggregate
  | count | sum | average | least | greatest
deriving DecidableEq, Repr

/-- The functions of one number. -/
inductive UnaryFunction
  | abs | sqrt | floor | ceil | log10 | ln | exp | sin | cos | tan | asin | acos | atan
deriving DecidableEq, Repr

/-- The functions. -/
inductive Builtin
  | aggregate (a : Aggregate)
  | unary (f : UnaryFunction)
  | round
  | power
deriving DecidableEq, Repr

namespace Builtin

/-- The functions by their names, in the order of the names. -/
def table : List (String × Builtin) := [
  ("abs", .unary .abs), ("acos", .unary .acos), ("asin", .unary .asin), ("atan", .unary .atan),
  ("average", .aggregate .average), ("avg", .aggregate .average), ("ceil", .unary .ceil),
  ("cos", .unary .cos), ("count", .aggregate .count), ("exp", .unary .exp),
  ("floor", .unary .floor), ("ln", .unary .ln), ("log", .unary .log10),
  ("log10", .unary .log10), ("max", .aggregate .greatest), ("mean", .aggregate .average),
  ("min", .aggregate .least), ("pow", .power), ("round", .round), ("sin", .unary .sin),
  ("sqrt", .unary .sqrt), ("sum", .aggregate .sum), ("tan", .unary .tan)]

/-- The function of a name in lower case. -/
def ofName? (name : String) : Option Builtin := table.lookup name

/-- The names of all functions, in order. -/
def names : List String := table.map (·.1)

end Builtin

/-! ## Aggregates -/

/-- The least of some numbers: the first that no later one is less than. -/
def leastOf (x : Float) (xs : List Float) : Float := xs.foldl (fun m y => if y < m then y else m) x

/-- The greatest of some numbers: the first that no later one is greater than. -/
def greatestOf (x : Float) (xs : List Float) : Float :=
  xs.foldl (fun m y => if y > m then y else m) x

/-- The sum of some numbers, rounded once. -/
def sumOf (xs : List Float) : Except Fault Float :=
  match Decimal.exactSum xs with
  | .ok x => .ok x
  | .error .overflow => .error .sumOverflow
  | .error .oppositeInfinities => .error .oppositeInfinities

/-- The value of an aggregate, called by `name`. -/
def Aggregate.apply (a : Aggregate) (name : String) (args : List Value) : Except Fault Value :=
  match a, args with
  | .count, _ => .ok (.number args.length.toFloat)
  | .sum, [] => .ok (.number 0)
  | _, [] => .ok (.error (.noArguments name))
  | .sum, first :: _ =>
    (sumOf (args.map (·.magnitude))).map fun x => (first.withAmount x).checked
  | .average, first :: _ =>
    (sumOf (args.map (·.magnitude))).map fun x =>
      (first.withAmount (x / args.length.toFloat)).checked
  | .least, first :: rest =>
    .ok (first.withAmount (leastOf first.magnitude (rest.map (·.magnitude))))
  | .greatest, first :: rest =>
    .ok (first.withAmount (greatestOf first.magnitude (rest.map (·.magnitude))))

/-! ## Functions of numbers -/

namespace UnaryFunction

/-- The value of a function that gives an integer. -/
def integral (f : Decimal.Binary → Int) (x : Float) : Value :=
  match Decimal.binary? x with
  | some b => .number (Decimal.Binary.ofInt (f b) 0).toFloat
  | none => .error .invalidArgument

/-- The value of a real function. It is undefined where it makes no number of a number, and too
great where it makes infinity of a finite number. -/
def real (f : Float → Float) (x : Float) : Value :=
  let y := f x
  if y.isNaN && !x.isNaN || y.isInf && x.isFinite then .error .invalidArgument
  else (Value.number y).checked

/-- The value of a function of one number. -/
def apply : UnaryFunction → Float → Value
  | .abs => real Float.abs
  | .sqrt => real Float.sqrt
  | .floor => integral Decimal.Binary.floor
  | .ceil => integral Decimal.Binary.ceil
  | .log10 => real Float.log10
  | .ln => real Float.log
  | .exp => real Float.exp
  | .sin => real Float.sin
  | .cos => real Float.cos
  | .tan => real Float.tan
  | .asin => real Float.asin
  | .acos => real Float.acos
  | .atan => real Float.atan

end UnaryFunction

/-- A number rounded to so many decimals, a half going away from zero. -/
def roundTo (x places : Float) : Except Fault Value := do
  match Decimal.roundHalfAway? x (← integerPart places) with
  | some y => return (Value.number y).checked
  | none => throw .roundingUnitTooGreat

/-! ## Calls -/

/-- The value of a function, called by `name`, of some values. -/
def Builtin.apply (f : Builtin) (name : String) (args : List Value) : Except Fault Value :=
  match f, args with
  | .aggregate a, _ => a.apply name args
  | .unary f, [x] => .ok (f.apply x.magnitude)
  | .unary _, _ => .ok (.error (.wrongArity name "1 argument" args.length))
  | .round, [x] => roundTo x.magnitude 0
  | .round, [x, places] => roundTo x.magnitude places.magnitude
  | .round, _ => .ok (.error (.wrongArity name "1 or 2 arguments" args.length))
  | .power, [x, y] => .ok (Value.power x.magnitude y.magnitude)
  | .power, _ => .ok (.error (.wrongArity name "2 arguments" args.length))

end LineCalc
