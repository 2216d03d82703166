import LineCalc.Text.Quoted

/-!
# Problems

What can be wrong with a line. A problem never stops the calculator: it becomes the value of the
line, and of any larger expression around the part that has it. Each cause is a constructor; its
kind and its wording are functions of it.
-/

namespace LineCalc

/-- The kinds of problems. -/
inductive ProblemKind
  | parse | evaluation | conversion | division | name | function | typing | unknown
deriving DecidableEq, Repr

namespace ProblemKind

/-- The kinds, in order. -/
def all : List ProblemKind :=
  [.parse, .evaluation, .conversion, .division, .name, .function, .typing, .unknown]

/-- The short name of a kind. -/
def tag : ProblemKind → String
  | .parse => "parse"
  | .evaluation => "eval"
  | .conversion => "conversion"
  | .division => "division"
  | .name => "variable"
  | .function => "function"
  | .typing => "type"
  | .unknown => "unknown"

/-- The words for a kind. -/
def label : ProblemKind → String
  | .parse => "parse error"
  | .evaluation => "evaluation error"
  | .conversion => "conversion error"
  | .division => "division error"
  | .name => "variable error"
  | .function => "function error"
  | .typing => "type error"
  | .unknown => "unknown error"

end ProblemKind

/-- What is wrong with the form of a line. -/
inductive SyntaxProblem
  | strayCharacter (text : String)
  | unexpectedEnd
  | unexpectedToken (text : String)
  | unclosedGroup
  | unclosedCall (function : String)
  | missingAmount (symbol : String)
  | unknownSymbol (symbol : String)
  | missingTarget
deriving DecidableEq, Repr

/-- The wording of a problem of form. -/
def SyntaxProblem.message : SyntaxProblem → String
  | .strayCharacter text => s!"unexpected character {Text.quoted text}"
  | .unexpectedEnd => "unexpected end of expression"
  | .unexpectedToken text => s!"unexpected token {Text.quoted text}"
  | .unclosedGroup => "expected ')'"
  | .unclosedCall function => s!"expected ')' after arguments to {function}"
  | .missingAmount symbol => s!"expected amount after {Text.quoted symbol}"
  | .unknownSymbol symbol => s!"unknown symbol {Text.quoted symbol}"
  | .missingTarget => "expected conversion target"

/-- What is wrong with a line. -/
inductive Problem
  | malformed (cause : SyntaxProblem)
  /-- The result is infinite or undefined. -/
  | invalidResult
  /-- A function is undefined at its argument. -/
  | invalidArgument
  | overflow
  | nothingToConvert
  | divisionByZero
  | remainderByZero
  | undefinedName (name : String)
  | reservedName (name : String)
  | unknownFunction (name : String)
  /-- A function got the wrong count of arguments; `expected` says in words how many it takes. -/
  | wrongArity (function : String) (expected : String) (got : Nat)
  | noArguments (function : String)
  | missingTarget
  | unknownTarget (target : String)
  /-- The unit cannot become the target unit. -/
  | unitMismatch (source target : String)
  /-- The value cannot become what the target names. -/
  | targetMismatch (target : String)
  | noRateInto (target : String)
  | noRate (source target : String)
  | incompatibleUnits (left right : String)
  /-- Two kinds of values have no sum. -/
  | cannotCombine (left right : String)
  /-- A problem stated by its kind and wording. -/
  | stated (kind : ProblemKind) (message : String)
deriving DecidableEq, Repr

namespace Problem

/-- The kind of a problem. -/
def kind : Problem → ProblemKind
  | malformed _ => .parse
  | invalidResult | overflow | nothingToConvert => .evaluation
  | invalidArgument | unknownFunction _ | wrongArity .. | noArguments _ => .function
  | divisionByZero | remainderByZero => .division
  | undefinedName _ => .name
  | reservedName _ | incompatibleUnits .. | cannotCombine .. => .typing
  | missingTarget | unknownTarget _ | unitMismatch .. | targetMismatch _ | noRateInto _
  | noRate .. => .conversion
  | stated kind _ => kind

/-- The wording of a problem. -/
def message : Problem → String
  | malformed cause => cause.message
  | invalidResult | invalidArgument => "invalid result"
  | overflow => "calculation resulted in overflow"
  | nothingToConvert => "no previous value to convert"
  | divisionByZero => "division by zero"
  | remainderByZero => "modulo by zero"
  | undefinedName name => s!"undefined variable: {name}"
  | reservedName name => s!"cannot assign to reserved name '{name}'"
  | unknownFunction name => s!"unknown function: {name}"
  | wrongArity function expected got => s!"{function} expects {expected}, got {got}"
  | noArguments function => s!"{function} requires at least one argument"
  | missingTarget => "missing conversion target"
  | unknownTarget target => s!"unknown target: {target}"
  | unitMismatch source target => s!"cannot convert {source} to {target} (incompatible types)"
  | targetMismatch target => s!"cannot convert to {target} (incompatible types)"
  | noRateInto target => s!"no rate available for conversion to {target}"
  | noRate source target => s!"no rate available for {source} to {target}"
  | incompatibleUnits left right => s!"incompatible units: {left} and {right}"
  | cannotCombine left right => s!"cannot combine {left} and {right}"
  | stated _ message => message

end Problem

/-- A problem with the place where it was found, as far as that is known. -/
structure Diagnostic where
  problem : Problem
  /-- Characters from the start of the text. -/
  pos : Option Nat := none
  line : Option Nat := none
deriving DecidableEq, Repr

namespace Diagnostic

/-- A problem of form at a place. -/
def ofSyntax (cause : SyntaxProblem) (pos : Nat) : Diagnostic := ⟨.malformed cause, some pos, none⟩

/-- The same in a line of a document. -/
def inLine (d : Diagnostic) (line : Option Nat) : Diagnostic := { d with line }

/-- The kind, the wording, and the place. -/
def report (d : Diagnostic) : String :=
  d.problem.kind.label ++ ": " ++ d.problem.message
    ++ (d.line.map fun n => s!" (line {n})").getD ""
    ++ (d.pos.map fun n => s!" (col {n})").getD ""

end Diagnostic

end LineCalc
