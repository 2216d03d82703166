import LineCalc.Proofs.Decimal.Sign
import LineCalc.Proofs.Evaluation.Finite
import LineCalc.Proofs.Expr.LeadingSign
import LineCalc.Session.Eval

/-!
# The value of a line that begins with a sign

Without a previous result a minus sign at the beginning of a line takes the opposite of all that
follows it. That is the value of the line as an expression only if the operators after the first
operand take the opposite of that to the opposite of their result: products, quotients, remainders,
changes by a percentage and conversions do, but for those from one temperature scale to another;
sums and powers do not.

Results:
1. `Expr.eval_signFirst_plus`, `Expr.eval_signFirst_minus`: a sign of the first operand and one of
   the whole.
2. `leading_sign_value`: the value of a line that begins with a sign.
-/

namespace LineCalc

open LineCalc.Decimal
open LineCalc.Parser

/-- An operator takes the opposite of its left operand to the opposite of its result. -/
def BinaryOp.PassesSign (op : BinaryOp) (right : Value) : Prop :=
  match op with
  | .mul | .div | .mod => True
  | .add | .sub => right.kind = .percentage
  | .pow => False

/-! ## Operators -/

namespace Value

variable {rates : RateTable} {op : BinaryOp} {left right v : Value} {x n : Float}
  {d : Denomination} {target : String}

theorem withAmount_neg (v : Value) (n : Float) : v.withAmount (-n) = (v.withAmount n).negate := by
  cases v <;> rfl

theorem negate_amount (n : Float) (d : Denomination) : (amount n d).negate = amount (-n) d := rfl

theorem negate_error (p : Problem) : (error p).negate = error p := rfl

theorem checked_negate (v : Value) : v.negate.checked = v.checked.negate := by
  have zero : (0 : Float).isFinite = true := rfl
  cases v with
  | empty | error => simp [checked, negate, withAmount, magnitude, zero]
  | amount n d =>
    rw [negate_amount, checked_amount, checked_amount, isFinite_neg]
    by_cases finite : n.isFinite = true
    · rw [if_pos finite, if_pos finite, negate_amount]
    · rw [if_neg finite, if_neg finite, negate_error]

theorem scaled_negate :
    scaled (.amount (-x) d) right (-n) = (scaled (.amount x d) right n).negate := by
  have number : (amount (-x) d).isNumber = (amount x d).isNumber := rfl
  rw [scaled, scaled, ← checked_negate, number]
  congr 1
  split
  · exact withAmount_neg right n
  · split <;> rfl

theorem applyAmounts_negate (passes : op.PassesSign right) :
    applyAmounts rates op (.amount (-x) d) right =
      (applyAmounts rates op (.amount x d) right).map negate := by
  have share (m : Float) : checked (amount (-x * m) d) = (checked (amount (x * m) d)).negate := by
    rw [neg_mul_double, ← negate_amount, checked_negate]
  cases op with
  | add | sub =>
    have percentage : (right.kind == .percentage) = true := beq_iff_eq.mpr passes
    simp [applyAmounts, addOrSub, percentage, share, Except.map]
  | mul => simp [applyAmounts, neg_mul_double, scaled_negate, Except.map]
  | div =>
    simp only [applyAmounts, magnitude_amount, neg_div_double, scaled_negate]
    split <;> rfl
  | mod =>
    simp only [applyAmounts, magnitude_amount, remainder?_neg]
    split
    · rfl
    · cases remainder? x right.magnitude with
      | none => rfl
      | some r => simp [scaled_negate, Except.map]
  | pow => exact passes.elim

/-- Where the sign passes, the operator is applied to the opposite as to the value. -/
theorem apply_negate (nonempty : left ≠ .empty)
    (passes : right.isError = true ∨ op.PassesSign right) :
    left.negate.apply rates op right = (left.apply rates op right).map negate := by
  cases left with
  | empty => exact absurd rfl nonempty
  | error p => rfl
  | amount x d =>
    cases right with
    | error p => rfl
    | empty =>
      have passes : op.PassesSign (.number 0) := by
        rcases passes with h | h
        · cases h
        · cases op <;> first | exact h | cases h
      exact applyAmounts_negate passes
    | amount y d' =>
      rcases passes with h | h
      · cases h
      · exact applyAmounts_negate h

/-! ## Conversions -/

theorem convert_neg {u w : MeasureUnit} (linear : u.quantity = .temperature → u = w) :
    u.convert (-n) w = (u.convert n w).map (-·) := by
  unfold MeasureUnit.convert
  split
  · rfl
  · split
    · rfl
    · next other =>
      have noTemperature : u.quantity ≠ .temperature := fun h => other (linear h)
      rw [if_neg noTemperature, if_neg noTemperature]
      cases u.factors.lookup w with
      | none => rfl
      | some factor => exact congrArg some (neg_mul_double n factor)

theorem convertValue?_negate : rates.convertValue? (.amount (-x) d) target =
    (rates.convertValue? (.amount x d) target).map negate := by
  have rated : (amount (-x) d).isRated = (amount x d).isRated := rfl
  have code : (amount (-x) d).code = (amount x d).code := rfl
  have converted (target : String) : rates.convert? (-x) (amount x d).code target =
      (rates.convert? x (amount x d).code target).map (-·) := by
    rw [RateTable.convert?, RateTable.convert?]
    cases rates.rate? (amount x d).code target with
    | none => rfl
    | some rate => exact congrArg some (neg_mul_double x rate)
  simp only [RateTable.convertValue?, rated, code, magnitude_amount, converted]
  cases (amount x d).isRated with
  | false => rfl
  | true =>
    cases Denomination.ofRateCode? target with
    | none => rfl
    | some e => cases h : rates.convert? x (amount x d).code e.code <;> simp [h]; rfl

theorem convertNamed_negate : convertNamed rates (.amount (-x) d) target =
    (convertNamed rates (.amount x d) target).negate := by
  unfold convertNamed
  cases Denomination.ofName? target with
  | none => rfl
  | some e =>
    have number : (amount (-x) d).isNumber = (amount x d).isNumber := rfl
    have rated : (amount (-x) d).isRated = (amount x d).isRated := rfl
    simp only [number, convertRated, rated, convertValue?_negate]
    split
    · rfl
    · split
      · cases rates.convertValue? (amount x d) e.code <;> rfl
      · rfl

/-- The opposite is converted to the opposite, but for a temperature on another scale. -/
theorem convertTo_negate (nonempty : v ≠ .empty)
    (linear : ∀ n u w, v = .amount n (.unit u) → MeasureUnit.ofName? target = some w →
      u.quantity = .temperature → u = w) :
    v.negate.convertTo rates target = (v.convertTo rates target).negate := by
  cases v with
  | empty => exact absurd rfl nonempty
  | error p => rfl
  | amount n d =>
    have named : convertNamed rates (amount (-n) d) target =
        (convertNamed rates (amount n d) target).negate := convertNamed_negate
    rw [negate_amount]
    cases d with
    | unit u =>
      simp only [convertTo]
      split
      · rfl
      · cases unit : MeasureUnit.ofName? target with
        | none => exact named
        | some w =>
          simp only [convert_neg (linear n u w rfl unit)]
          cases u.convert n w <;> rfl
    | plain | percent | currency | metal | crypto =>
      simp only [convertTo, named]
      split <;> rfl

end Value

/-! ## Expressions -/

/-- Along the first operands of an expression, everything passes a sign on. -/
def Expr.SignPasses (s : Scope) : Expr → Prop
  | .binary left op right => left.SignPasses s ∧ left.eval s ≠ .ok .empty ∧
      ∀ v, right.eval s = .ok v → v.isError = true ∨ op.PassesSign v
  | .conversion e target => e.SignPasses s ∧ e.eval s ≠ .ok .empty ∧
      ∀ n u w, e.eval s = .ok (.amount n (.unit u)) → MeasureUnit.ofName? target = some w →
        u.quantity = .temperature → u = w
  | _ => True

namespace Expr

variable {s : Scope} {e : Expr}

/-- A plus sign changes nothing. -/
theorem eval_signFirst_plus (s : Scope) (e : Expr) : (e.signFirst .plus).eval s = e.eval s := by
  fun_induction Expr.signFirst .plus e with
  | case1 left op right ih => rw [Expr.eval, Expr.eval, ih]
  | case2 e target ih => rw [Expr.eval, Expr.eval, ih]
  | case3 e => rw [Expr.eval]

/-- A minus sign in front of the first operand is one of the whole, if everything passes it on. -/
theorem eval_signFirst_minus (passes : e.SignPasses s) :
    (e.signFirst .minus).eval s = (e.eval s).map Value.negate := by
  fun_induction Expr.signFirst .minus e with
  | case1 left op right ih =>
    obtain ⟨first, nonempty, next⟩ := passes
    rw [Expr.eval, Expr.eval, ih first]
    cases value : left.eval s with
    | error f => rfl
    | ok v =>
      cases v with
      | error p => rfl
      | empty => exact absurd value nonempty
      | amount x d =>
        cases other : right.eval s with
        | error f => rfl
        | ok w => exact Value.apply_negate (fun empty => by cases empty) (next w other)
  | case2 e target ih =>
    obtain ⟨first, nonempty, linear⟩ := passes
    rw [Expr.eval, Expr.eval, ih first]
    cases value : e.eval s with
    | error f => rfl
    | ok v =>
      have amount : v ≠ .empty := fun eq => nonempty (eq ▸ value)
      refine congrArg Except.ok (Value.convertTo_negate amount fun n u w eq => ?_)
      exact linear n u w (eq ▸ value)
  | case3 e => rw [Expr.eval]

end Expr

/-! ## Lines -/

namespace Session

variable {s : Session} {rates : RateTable} {text : String} {line : Line} {e : Expr}

/-- Without a previous result a line that begins with a sign has the value of what follows, or the
opposite of it. -/
theorem value_of_resume {sign : SignOp} (first : s.previous = .empty) :
    (Expr.resume sign.toBinary e).eval (s.scope rates) = match sign with
      | .minus => (e.eval (s.scope rates)).map Value.negate
      | .plus => e.eval (s.scope rates) := by
  have empty : (s.scope rates).previous.isEmpty = true := by
    show s.previous.isEmpty = true
    rw [first]
    rfl
  rw [Expr.eval]
  cases sign <;> cases e.eval (s.scope rates) <;>
    simp [bind, Except.bind, Scope.resume, empty, Except.map, SignOp.toBinary]

end Session

/-- Without a previous result, a line that begins with a sign has the value of the same text as an
expression, if the sign is a plus or belongs to a number. A minus sign by itself takes the opposite
of all that follows it, which is the same only if all of that passes the sign on. -/
theorem leading_sign_value {s : Session} {rates : RateTable} {text : String} {line : Line}
    (first : s.previous = .empty)
    (begins : text.toList.head? = some '-' ∨ text.toList.head? = some '+')
    (parsed : Line.parse text = .ok (line, [])) :
    ∃ t more e, Token.ofText text = t :: more ∧ Expr.parse text = .ok (some e, []) ∧
      (t.kind ≠ .minus → (s.eval rates text).map Prod.fst = e.eval (s.scope rates)) ∧
      (t.kind = .minus → ∃ rest : Expr, line.statement = .expr (.resume .sub rest) ∧
        e = rest.signFirst .minus ∧
        (s.eval rates text).map Prod.fst = (rest.eval (s.scope rates)).map Value.negate ∧
        (rest.SignPasses (s.scope rates) →
          (s.eval rates text).map Prod.fst = e.eval (s.scope rates))) := by
  obtain ⟨c, cs, sign, text_eq⟩ : ∃ c cs, (c = '-' ∨ c = '+') ∧ text.toList = c :: cs := by
    cases chars : text.toList with
    | nil => simp [chars] at begins
    | cons c cs => exact ⟨c, cs, by simpa [chars] using begins, rfl⟩
  obtain ⟨t, more, e, tokens, plain, readings⟩ := parse_of_sign sign text_eq parsed
  refine ⟨t, more, e, tokens, plain, ?_⟩
  obtain ⟨statement, eq⟩ : ∃ statement, line.statement = statement := ⟨_, rfl⟩
  rw [eq] at readings
  have value {e : Expr} (eq : line.statement = .expr e) :
      (s.eval rates text).map Prod.fst = e.eval (s.scope rates) :=
    Session.preview_of_expr parsed eq
  cases readings with
  | number kind =>
    refine ⟨fun _ => value eq, fun minus => ?_⟩
    rcases kind with kind | kind <;> exact absurd (kind.symm.trans minus) (by decide)
  | @sign sign rest sign? =>
    rw [value eq, Session.value_of_resume first]
    cases sign with
    | plus =>
      refine ⟨fun _ => (Expr.eval_signFirst_plus _ rest).symm, fun minus => ?_⟩
      rw [minus] at sign?
      cases sign?
    | minus =>
      refine ⟨fun other => absurd ?_ other, fun _ => ⟨rest, eq, rfl, rfl, fun passes => ?_⟩⟩
      · cases kind : t.kind <;> simp_all [signOp?]
      · exact (Expr.eval_signFirst_minus passes).symm

/-! ### A product and a sum -/

/-- The tokens of `- 5`, an operator and `3`. -/
def exSignedTokens (kind : TokenKind) (symbol : String) : List Token :=
  [⟨.minus, "-", 0, 1, 1⟩, ⟨.number, "5", 2, 1, 3⟩, ⟨kind, symbol, 4, 1, 5⟩,
    ⟨.number, "3", 6, 1, 7⟩, ⟨.finish, "", 7, 1, 8⟩]

/-- The expression `5`, an operator and `3`. -/
def exFiveThree (op : BinaryOp) : Expr :=
  .binary (.literal 5 .plain "5") op (.literal 3 .plain "3")

theorem ofText_exSum : Token.ofText "- 5 + 3" = exSignedTokens .plus "+" := by
  cbv

theorem ofText_exProduct : Token.ofText "- 5 * 3" = exSignedTokens .times "*" := by
  cbv

theorem parse_exSigned {text symbol : String} {kind : TokenKind} {op : BinaryOp}
    (tokens : Token.ofText text = exSignedTokens kind symbol) (op? : binaryOp? kind = some op) :
    Line.parse text = .ok (⟨.expr (.resume .sub (exFiveThree op)), none, text⟩, []) := by
  have five : amountOf "5" = .ok 5 := eq_ok_of_toOption (by decide +kernel)
  have three : amountOf "3" = .ok 3 := eq_ok_of_toOption (by decide +kernel)
  rw [Line.parse, tokens]
  cases kind <;> cases op? <;>
    simp [parseTokens, exSignedTokens, parseStatement, body, strayProblems, lastComment?,
      parseExpression, parseOperators, climb, parseOperand, parsePrimary, parseSimple, parseNumber,
      suffixOf, five, three, startsWith, binaryOp?, signOp?, BinaryOp.precedence,
      BinaryOp.rightPrecedence, TokenKind.isSymbol, Parsed.behind, Except.map, exFiveThree]

theorem leading_sign_value_exProduct : ∃ e, Expr.parse "- 5 * 3" = .ok (some e, []) ∧
    (({} : Session).eval [] "- 5 * 3").map Prod.fst = e.eval (({} : Session).scope []) := by
  obtain ⟨t, more, e, tokens, plain, -, minus⟩ := leading_sign_value
    (rfl : ({} : Session).previous = .empty) (.inl (by simp))
    (parse_exSigned ofText_exProduct (rfl : binaryOp? .times = some .mul))
  rw [ofText_exProduct] at tokens
  obtain ⟨rfl, -⟩ := List.cons.inj tokens
  obtain ⟨rest, statement, -, -, passes⟩ := minus rfl
  cases statement
  exact ⟨e, plain, passes ⟨trivial, fun h => (by cases h), fun _ _ => .inr trivial⟩⟩

/-- The first operand has the sign in the expression, the sum has it in the line. -/
theorem leading_minus_of_sum :
    (({} : Session).eval [] "- 5 + 3").map Prod.fst = .ok (.number (-8)) ∧
    ∃ e, Expr.parse "- 5 + 3" = .ok (some e, []) ∧
      e.eval (({} : Session).scope []) = .ok (.number (-2)) := by
  have parsed := parse_exSigned ofText_exSum (rfl : binaryOp? .plus = some .add)
  constructor
  · exact (Session.preview_of_expr parsed rfl).trans (eq_ok_of_toOption (by decide +kernel))
  · have begins : "- 5 + 3".toList = '-' :: [' ', '5', ' ', '+', ' ', '3'] := by simp
    obtain ⟨t, more, e, tokens, plain, readings⟩ := parse_of_sign (.inl rfl) begins parsed
    rw [ofText_exSum] at tokens
    obtain ⟨rfl, -⟩ := List.cons.inj tokens
    refine ⟨e, plain, ?_⟩
    generalize eq : Statement.expr (.resume .sub (exFiveThree .add)) = statement at readings
    cases readings with
    | number kind => rcases kind with kind | kind <;> cases kind
    | sign sign? =>
      cases sign?
      cases eq
      exact eq_ok_of_toOption (by decide +kernel)

end LineCalc
