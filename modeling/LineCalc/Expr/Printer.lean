import LineCalc.Decimal.Integer
import LineCalc.Expr
import LineCalc.Text.Blank

/-!
# Expressions as text

The canonical text of a tree: every operator between parentheses, amounts by their codes, whole
amounts without a decimal point. An infinite amount has no text.
-/

namespace LineCalc

/-- An amount: an integer if it is whole, else the shortest decimal. -/
def amountText (x : Float) : Except Fault String :=
  (integerPart x).map fun n => if Decimal.isWhole x then toString n else Decimal.shortestText x

/-- An amount with its denomination. -/
def literalText (x : Float) : Denomination → Except Fault String
  | .plain => amountText x
  | .percent => (amountText (x * 100)).map (· ++ "%")
  | d => (amountText x).map fun s => s!"{s} {d.code}"

namespace Expr

mutual

/-- The canonical text of an expression. -/
def render : Expr → Except Fault String
  | literal x d _ => literalText x d
  | name n => .ok n
  | binary left op right => do
    let l ← left.render
    let r ← right.render
    return s!"({l} {op.symbol} {r})"
  | signed sign e => do return s!"({sign.symbol}{← e.render})"
  | percentOf x _ e => do
    let p ← literalText x .percent
    return s!"{p} of {← e.render}"
  | conversion e target => do return s!"{← e.render} in {target}"
  | call function args => do
    let texts ← renderAll args
    return function ++ "(" ++ ", ".intercalate texts ++ ")"
  | group e => do return s!"({← e.render})"
  | resume op e => do return s!"{op.symbol} {← e.render}"
  | resumeConversion target => .ok s!"in {target}"

/-- The canonical texts of some expressions. -/
def renderAll : List Expr → Except Fault (List String)
  | [] => .ok []
  | e :: es => do
    let s ← e.render
    return s :: (← renderAll es)

end

end Expr

/-- The canonical text of a statement. -/
def Statement.render : Statement → Except Fault String
  | .empty => .ok ""
  | .comment text => .ok text
  | .expr e => e.render
  | .assign name e => do return s!"{name} = {← e.render}"

/-- The canonical text of a line, its comment at the end. -/
def Line.render (line : Line) : Except Fault String := do
  let text ← line.statement.render
  match line.statement, line.comment with
  | .comment _, _ => return text
  | _, none => return text
  | _, some comment => return Text.trim s!"{text} {comment}"

end LineCalc
