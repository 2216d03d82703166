import LineCalc.Proofs.Expr.Computed
import LineCalc.Proofs.Expr.WrittenLine
import LineCalc.Session.Eval

/-!
# The text of a line in a session

The canonical text of a line is another line with the same value, if the line is plain: wherever it
is evaluated it leaves the same session but for the text of its record.

A remainder is written with a sign that is not read, an infinite amount has no text, the negative
zero is written as the positive one, and `pt`, the code of pints, is read as platinum.

Results:
1. `rendering_keeps_meaning`: this for every line without problems that is plain.
2. `rendering_loses_meaning`: a line for each of the exceptions.
-/

namespace LineCalc

open LineCalc.Parser

variable {s : Session} {rates : RateTable} {st st' : Statement} {text raw : String} {line : Line}

/-- The canonical text of a line is parsed without problems, and wherever both are evaluated it has
the same value and the same effect, and its record differs in the text alone. -/
def KeepsMeaning (text : String) (line : Line) : Prop :=
  ∃ rendered again, line.render = .ok rendered ∧ Line.parse rendered = .ok (again, []) ∧
    ∀ (s : Session) (rates : RateTable),
      (s.eval rates rendered).map Prod.fst = (s.eval rates text).map Prod.fst ∧
      s.runStatement rates rendered again.statement =
        (s.runStatement rates text line.statement).map fun (r, t) =>
          ({ r with raw := rendered }, t)

theorem Statement.Means.run (h : st'.Means st) (s : Session) (rates : RateTable) (raw : String) :
    s.runStatement rates raw st' = s.runStatement rates raw st := by
  cases h with
  | empty => rfl
  | comment => rfl
  | expr value fresh => simp only [Session.runStatement, value, fresh]
  | assign value => simp only [Session.runStatement, value]

/-- The text of a line is only kept. -/
theorem Session.runStatement_raw (s : Session) (rates : RateTable) (raw raw' : String)
    (st : Statement) : s.runStatement rates raw' st =
      (s.runStatement rates raw st).map fun (r, t) => ({ r with raw := raw' }, t) := by
  cases st with
  | empty => rfl
  | comment => rfl
  | expr e =>
    simp only [runStatement]
    cases e.eval (s.scope rates) <;> rfl
  | assign name e =>
    simp only [runStatement]
    split
    · rfl
    · cases e.eval (s.scope rates) with
      | error f => rfl
      | ok v =>
        simp only [bind, Except.bind]
        split <;> rfl

theorem Session.value_of_parse (parsed : Line.parse text = .ok (line, [])) (s : Session)
    (rates : RateTable) : (s.eval rates text).map Prod.fst =
      (s.runStatement rates text line.statement).map fun (r, _) => r.value := by
  rw [eval_of_parse parsed, evalStatement]
  cases s.runStatement rates text line.statement <;> rfl

/-- The canonical text of a plain line without problems is parsed without problems, and has the
value, the assignment and the effect of the line in every session. -/
theorem rendering_keeps_meaning (parsed : Line.parse text = .ok (line, []))
    (plain : line.statement.isPlain = true) : KeepsMeaning text line := by
  obtain ⟨rendered, again, render, parsedAgain, means⟩ :=
    parse_of_render (line_of_parse parsed) plain
  refine ⟨rendered, again, render, parsedAgain, fun s rates => ?_⟩
  have run : s.runStatement rates rendered again.statement =
      (s.runStatement rates text line.statement).map fun (r, t) =>
        ({ r with raw := rendered }, t) := by
    rw [means.run, s.runStatement_raw rates text rendered]
  refine ⟨?_, run⟩
  rw [Session.value_of_parse parsed, Session.value_of_parse parsedAgain, run]
  cases s.runStatement rates text line.statement <;> rfl

/-! ### A product with a comment -/

/-- The line `x = 2 * -3 km # far`. -/
def exDistance : Line :=
  ⟨.assign "x" (.binary (.literal 2 .plain "2") .mul (.literal (-3) (.unit .kilometer) "-3 km")),
    some "# far", "x = 2 * -3 km # far"⟩

theorem rendering_keeps_meaning_exDistance :
    Line.parse "x = 2 * -3 km # far" = .ok (exDistance, []) ∧ exDistance.statement.isPlain = true ∧
      KeepsMeaning "x = 2 * -3 km # far" exDistance := by
  have parsed : Line.parse "x = 2 * -3 km # far" = .ok (exDistance, []) :=
    parse_of_walkLine (by decide +kernel)
  have plain : exDistance.statement.isPlain = true := by decide +kernel
  exact ⟨parsed, plain, rendering_keeps_meaning parsed plain⟩

/-! ### The exceptions -/

/-- The line `10 mod 3`. -/
def exRest : Line :=
  ⟨.expr (.binary (.literal 10 .plain "10") .mod (.literal 3 .plain "3")), none, "10 mod 3"⟩

/-- The percent sign by itself is no token of the text of a remainder. -/
theorem parse_exRest_again (again : Line) : Line.parse "(10 % 3)" ≠ .ok (again, []) := by
  have worth : AreWorth (Token.ofText "(10 % 3)") := by decide +kernel
  obtain ⟨made, parsed, walked⟩ := parse_eq_walkLine worth
  have problem : (walkLine "(10 % 3)").toOption.any (·.2.isEmpty) = false := by decide +kernel
  intro parsed'
  obtain rfl := Except.ok.inj (parsed.symm.trans parsed')
  rw [walked] at problem
  cases problem

/-- A line whose text is read as another amount does not keep its meaning. -/
theorem not_keepsMeaning {rendered raw raw' : String} {x y : Float} {d e : Denomination}
    (parsed : Line.parse text = .ok (⟨.expr (.literal x d raw), none, text⟩, []))
    (render : literalText x d = .ok rendered)
    (again : Line.parse rendered = .ok (⟨.expr (.literal y e raw'), none, rendered⟩, []))
    (other : ¬(y = x ∧ e = d)) : ¬KeepsMeaning text ⟨.expr (.literal x d raw), none, text⟩ := by
  rintro ⟨rendered', line', render', -, same⟩
  have render : Line.render ⟨.expr (.literal x d raw), none, text⟩ = .ok rendered := by
    rw [Line.render, Statement.render, Expr.render, render]
    rfl
  obtain rfl : rendered = rendered' := Except.ok.inj (render.symm.trans render')
  have same := (Session.preview_of_expr again rfl).symm.trans
    ((same {} []).1.trans (Session.preview_of_expr parsed rfl))
  rw [Expr.eval, Expr.eval] at same
  exact other (by simpa using same)

/-- Four lines whose canonical texts do not keep their meanings: a remainder, whose sign is not
read, an infinite amount, which has no text, the negative zero, and pints, which become platinum. -/
theorem rendering_loses_meaning :
    (∃ line, Line.parse "10 mod 3" = .ok (line, []) ∧ ¬KeepsMeaning "10 mod 3" line) ∧
    (∃ line, Line.parse "1e400" = .ok (line, []) ∧ ¬KeepsMeaning "1e400" line) ∧
    (∃ line, Line.parse "-0" = .ok (line, []) ∧ ¬KeepsMeaning "-0" line) ∧
    ∃ line, Line.parse "5 pints" = .ok (line, []) ∧ ¬KeepsMeaning "5 pints" line := by
  refine ⟨?_, ?_, ?_, ?_⟩
  · refine ⟨exRest, parse_of_walkLine (by decide +kernel), ?_⟩
    rintro ⟨rendered, again, render, parsed, -⟩
    have text : exRest.render = .ok "(10 % 3)" := eq_ok_of_toOption (by decide +kernel)
    obtain rfl : "(10 % 3)" = rendered := Except.ok.inj (text.symm.trans render)
    exact parse_exRest_again again parsed
  · have infinite : Line.parse "1e400" =
        .ok (⟨.expr (.literal (1 / 0) .plain "1e400"), none, "1e400"⟩, []) :=
      parse_of_walkLine (by decide +kernel)
    refine ⟨_, infinite, ?_⟩
    rintro ⟨rendered, again, render, -⟩
    have none : (Line.render ⟨.expr (.literal (1 / 0) .plain "1e400"), none, "1e400"⟩).toOption =
        none := by decide +kernel
    rw [render] at none
    cases none
  · have negative : Line.parse "-0" = .ok (⟨.expr (.literal (-0) .plain "-0"), none, "-0"⟩, []) :=
      parse_of_walkLine (by decide +kernel)
    have positive : Line.parse "0" = .ok (⟨.expr (.literal 0 .plain "0"), none, "0"⟩, []) :=
      parse_of_walkLine (by decide +kernel)
    exact ⟨_, negative, not_keepsMeaning negative (eq_ok_of_toOption (by decide +kernel)) positive
      (by decide +kernel)⟩
  · have pints : Line.parse "5 pints" =
        .ok (⟨.expr (.literal 5 (.unit .pint) "5 pints"), none, "5 pints"⟩, []) :=
      parse_of_walkLine (by decide +kernel)
    have platinum : Line.parse "5 pt" =
        .ok (⟨.expr (.literal 5 (.metal .platinum) "5 pt"), none, "5 pt"⟩, []) :=
      parse_of_walkLine (by decide +kernel)
    exact ⟨_, pints, not_keepsMeaning pints (eq_ok_of_toOption (by decide +kernel)) platinum
      (by decide +kernel)⟩

end LineCalc
