import LineCalc.Proofs.Expr.LineWalk

/-!
# The parser by computation

The parser calls itself on what is left of the tokens, which is found to be shorter only as it goes,
so the kernel does not compute it. The walk with the cursor is by recursion on its fuel, and the
kernel computes it. No call within a line is cut off with eight calls for each token and six more.
So what the parser makes of a given text is found by computing the walk.

Results:
1. `parse_eq_walkLine`: on a text whose numerals have amounts, the parser is the walk.
2. `parse_of_walkLine`: what the parser makes of a given text, from a check that can be computed.
-/

namespace LineCalc

/-! ## Equality of trees -/

mutual

/-- Two expressions are the same. -/
def Expr.isSame : Expr → Expr → Bool
  | .literal x d raw, .literal x' d' raw' => x = x' && d = d' && raw = raw'
  | .name n, .name n' => n = n'
  | .binary left op right, .binary left' op' right' =>
    left.isSame left' && op = op' && right.isSame right'
  | .signed sign e, .signed sign' e' => sign = sign' && e.isSame e'
  | .percentOf x raw e, .percentOf x' raw' e' => x = x' && raw = raw' && e.isSame e'
  | .conversion e target, .conversion e' target' => e.isSame e' && target = target'
  | .call function args, .call function' args' =>
    function = function' && Expr.areSame args args'
  | .group e, .group e' => e.isSame e'
  | .resume op e, .resume op' e' => op = op' && e.isSame e'
  | .resumeConversion target, .resumeConversion target' => target = target'
  | _, _ => false

/-- Two lists of expressions are the same. -/
def Expr.areSame : List Expr → List Expr → Bool
  | [], [] => true
  | e :: es, f :: fs => e.isSame f && Expr.areSame es fs
  | _, _ => false

end

mutual

theorem Expr.isSame_iff (e f : Expr) : e.isSame f = true ↔ e = f := by
  cases e with
  | literal => cases f <;> simp [Expr.isSame, and_assoc]
  | name => cases f <;> simp [Expr.isSame]
  | binary left op right =>
    cases f <;> simp [Expr.isSame, Expr.isSame_iff left, Expr.isSame_iff right, and_assoc]
  | signed sign e => cases f <;> simp [Expr.isSame, Expr.isSame_iff e]
  | percentOf x raw e => cases f <;> simp [Expr.isSame, Expr.isSame_iff e, and_assoc]
  | conversion e target => cases f <;> simp [Expr.isSame, Expr.isSame_iff e]
  | call function args => cases f <;> simp [Expr.isSame, Expr.areSame_iff args]
  | group e => cases f <;> simp [Expr.isSame, Expr.isSame_iff e]
  | resume op e => cases f <;> simp [Expr.isSame, Expr.isSame_iff e]
  | resumeConversion => cases f <;> simp [Expr.isSame]

theorem Expr.areSame_iff (es fs : List Expr) : Expr.areSame es fs = true ↔ es = fs := by
  cases es with
  | nil => cases fs <;> simp [Expr.areSame]
  | cons e es => cases fs <;> simp [Expr.areSame, Expr.isSame_iff e, Expr.areSame_iff es]

end

instance : DecidableEq Expr := fun e f => decidable_of_iff _ (e.isSame_iff f)

deriving instance DecidableEq for Statement
deriving instance DecidableEq for Line

namespace Parser

variable {text : String} {line : Line} {problems : List Diagnostic}

/-! ## The walk over a text -/

instance (ts : List Token) : Decidable (AreWorth ts) :=
  decidable_of_iff
    (∀ t ∈ ts, t.kind = .number ∨ t.kind = .percent → (amountOf t.text).toOption.isSome = true) <|
    forall₃_congr fun t _ _ => by
      cases amountOf t.text <;> simp [Except.toOption]

/-- The walk over the text of a line, with all the calls that it may need. -/
def walkLine (text : String) : Except Stop (Line × List Diagnostic) :=
  let tokens := Token.ofText text
  (Walk.line text tokens (8 * (body tokens).length + 6) ⟨0, strayProblems (body tokens)⟩).map
    fun (line, s) => (line, s.problems)

/-- Where the numerals of a text have amounts, the parser and the walk make the same of it. -/
theorem parse_eq_walkLine (worth : AreWorth (Token.ofText text)) :
    ∃ made, Line.parse text = .ok made ∧ walkLine text = .ok made := by
  obtain ⟨p, parsed, -, runs⟩ := line_runs (endsOnce_ofText text) worth text
  refine ⟨_, parsed, ?_⟩
  rcases runs (8 * (body (Token.ofText text)).length + 6) (strayProblems (body (Token.ofText text)))
    with done | ⟨short, -⟩
  · simp only [walkLine, done]
    rfl
  · exact absurd short (Nat.lt_irrefl _)

theorem parse_of_walkLine (h : AreWorth (Token.ofText text) ∧
    (walkLine text).toOption = some (line, problems)) :
    Line.parse text = .ok (line, problems) := by
  obtain ⟨worth, computed⟩ := h
  obtain ⟨made, parsed, walked⟩ := parse_eq_walkLine worth
  rw [walked] at computed
  rw [parsed, Option.some.inj computed]

/-- A difference without its second operand. -/
example : Line.parse "10% of $5 -" = .ok
    (⟨.expr (.binary (.percentOf 0.1 "10%" (.literal 5 (.currency .usDollar) "$5")) .sub
      (.literal 0 .plain "")), none, "10% of $5 -"⟩,
      [⟨.malformed .unexpectedEnd, some 11, none⟩]) :=
  parse_of_walkLine (by decide +kernel)

end Parser

end LineCalc
