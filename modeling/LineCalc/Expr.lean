import LineCalc.Catalog.Denomination

/-!
# Expressions and lines

The tree of one line. A line that begins with an operator or with `in` goes on from the previous
result; its tree has that continuation at the root.
-/

namespace LineCalc

/-- The operators between two operands. -/
inductive BinaryOp
  | add | sub | mul | div | mod | pow
deriving DecidableEq, Repr

namespace BinaryOp

/-- The sign of an operator. -/
def symbol : BinaryOp → String
  | .add => "+"
  | .sub => "-"
  | .mul => "*"
  | .div => "/"
  | .mod => "%"
  | .pow => "^"

/-- A higher precedence binds closer. -/
def precedence : BinaryOp → Nat
  | .add | .sub => 1
  | .mul | .div | .mod => 2
  | .pow => 3

/-- The least precedence of an operator inside the right operand: powers group to the right, all
others to the left. -/
def rightPrecedence : BinaryOp → Nat
  | .pow => 3
  | op => op.precedence + 1

end BinaryOp

/-- The signs in front of an operand. -/
inductive SignOp
  | minus | plus
deriving DecidableEq, Repr

/-- How a sign is written. -/
def SignOp.symbol : SignOp → String
  | .minus => "-"
  | .plus => "+"

/-- An expression. -/
inductive Expr
  /-- An amount as it stands in the text. -/
  | literal (value : Float) (denomination : Denomination) (raw : String)
  | name (name : String)
  | binary (left : Expr) (op : BinaryOp) (right : Expr)
  | signed (sign : SignOp) (operand : Expr)
  /-- `15% of x`; the percentage is a fraction. -/
  | percentOf (fraction : Float) (raw : String) (base : Expr)
  | conversion (operand : Expr) (target : String)
  | call (function : String) (args : List Expr)
  | group (inner : Expr)
  /-- An operator applied to the previous result and an operand. -/
  | resume (op : BinaryOp) (operand : Expr)
  /-- The previous result converted. -/
  | resumeConversion (target : String)
deriving Inhabited, Repr

namespace Expr

/-- The expression is an amount as it stands in the text. -/
def isLiteral : Expr → Bool
  | literal .. => true
  | _ => false

/-- The expression goes on from the previous result. -/
def isContinuation : Expr → Bool
  | resume .. | resumeConversion _ => true
  | _ => false

mutual

/-- All names in an expression, in order, with repetitions. -/
def mentions : Expr → List String
  | literal .. | resumeConversion _ => []
  | name n => [n]
  | binary left _ right => left.mentions ++ right.mentions
  | signed _ e | percentOf _ _ e | conversion e _ | group e | resume _ e => e.mentions
  | call _ args => mentionsAll args

/-- All names in a list of expressions, in order, with repetitions. -/
def mentionsAll : List Expr → List String
  | [] => []
  | e :: es => e.mentions ++ mentionsAll es

end

/-- A list without repetitions, each element at its first place. -/
def firstOccurrences (names : List String) : List String :=
  names.foldl (fun found n => if n ∈ found then found else found ++ [n]) []

/-- The names that an expression refers to, in order of their first occurrence. -/
def identifiers (e : Expr) : List String := firstOccurrences e.mentions

end Expr

/-- What a line says. -/
inductive Statement
  | empty
  | comment (text : String)
  | expr (e : Expr)
  | assign (name : String) (e : Expr)
deriving Inhabited, Repr

/-- The expression of a statement. -/
def Statement.expr? : Statement → Option Expr
  | .expr e | .assign _ e => some e
  | .empty | .comment _ => none

/-- A line with its comment and its text. -/
structure Line where
  statement : Statement
  comment : Option String
  raw : String
deriving Inhabited, Repr

end LineCalc
