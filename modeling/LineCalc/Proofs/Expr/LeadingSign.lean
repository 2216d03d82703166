import LineCalc.Proofs.Expr.Parser
import LineCalc.Proofs.Expr.Precedence
import LineCalc.Proofs.Token.Lexer

/-!
# A sign at the beginning

The same tokens are read in two ways. As a line, a sign in front goes on from the previous result
with all that follows it; as an expression, it belongs to the first operand, and everything else is
read as it would be without it.

Results:
1. `Parser.parseExpression_signed`: the expression with a sign in front, from that without it.
2. `parse_of_sign`: the two readings of a text.
-/

namespace LineCalc

/-- The expression with a sign in front of its first operand. -/
def Expr.signFirst (sign : SignOp) : Expr → Expr
  | .binary left op right => .binary (left.signFirst sign) op right
  | .conversion e target => .conversion (e.signFirst sign) target
  | e => .signed sign e

/-- The operator that a sign stands for at the beginning of a line. -/
def SignOp.toBinary : SignOp → BinaryOp
  | .minus => .sub
  | .plus => .add

namespace Parser

variable {src : Source} {least : Nat} {left : Expr} {t : Token} {ts : List Token} {sign : SignOp}

/-! ## Expressions -/

/-- What can stand behind a sign is one operand. -/
theorem signFirst_of_nested {e : Expr} (nested : e.Nested .operand) :
    e.signFirst sign = .signed sign e := by
  cases nested with
  | binary admits => exact admits.elim
  | conversion place => rcases place with h | h <;> cases h
  | _ => rfl

/-- The operators after an operand are read without regard to it. -/
theorem climb_signFirst (sign : SignOp) (src : Source) (least : Nat) (left : Expr)
    (ts : List Token) : climb src least (left.signFirst sign) ts =
      (climb src least left ts).map (·.behind 0 [] (Expr.signFirst sign)) := by
  induction length : ts.length using Nat.strong_induction_on generalizing left ts with
  | _ size ih =>
    cases ts with
    | nil => simp [climb, Except.map, Parsed.behind]
    | cons t rest =>
      cases op? : binaryOp? t.kind with
      | none => simp [climb, op?, Except.map, Parsed.behind]
      | some op =>
        by_cases close : op.precedence < least
        · simp [climb, op?, close, Except.map, Parsed.behind]
        · rw [climb_eq op? close, climb_eq op? close]
          cases parseOperators src op.rightPrecedence rest with
          | error f => rfl
          | ok right =>
            have shorter : (rest.drop right.used).length < size := by
              rw [← length, List.length_drop, List.length_cons]
              omega
            have more := ih _ shorter (.binary left op right.value) (rest.drop right.used) rfl
            rw [Expr.signFirst] at more
            simp only [Except.bind, more]
            cases climb src least (.binary left op right.value) (rest.drop right.used) with
            | error f => rfl
            | ok all => simp [Except.map, Parsed.behind]

theorem parseOperators_signed (sign? : signOp? t.kind = some sign) :
    parseOperators src least (t :: ts) =
      (parseOperators src least ts).map (·.behind 1 [] (Expr.signFirst sign)) := by
  rw [parseOperators_eq, parseOperators_eq, parseOperand_eq_signed sign?]
  cases first : parseOperand src ts with
  | error f => rfl
  | ok operand =>
    have nested := (parseOperand_grammar src ts operand first).2 .operand
    have more := climb_signFirst sign src least operand.value (ts.drop operand.used)
    rw [signFirst_of_nested nested] at more
    simp only [Except.map, Except.bind, Parsed.behind, Nat.add_comm 1, List.drop_succ_cons, more]
    cases climb src least operand.value (ts.drop operand.used) with
    | error f => rfl
    | ok all => simp [Nat.add_right_comm]

/-- With a sign in front an expression is read as without it, and the sign goes to its first
operand. -/
theorem parseExpression_signed (sign? : signOp? t.kind = some sign) :
    parseExpression src (t :: ts) =
      (parseExpression src ts).map (·.behind 1 [] (Expr.signFirst sign)) := by
  rw [parseExpression_eq, parseExpression_eq, parseOperators_signed sign?]
  cases parseOperators src 1 ts with
  | error f => rfl
  | ok all =>
    simp only [Except.map, Parsed.behind, withTarget, Nat.add_comm 1, List.drop_succ_cons]
    split
    · simp [Expr.signFirst, Nat.add_right_comm]
    · rfl

/-! ## Texts -/

theorem binaryOp?_of_signOp? (sign? : signOp? t.kind = some sign) :
    binaryOp? t.kind = some sign.toBinary := by
  unfold signOp? at sign?
  split at sign? <;> cases sign?
  · next minus => rw [minus]; rfl
  · next plus => rw [plus]; rfl

/-- The kinds of the first token of a text that begins with a sign. -/
def BeginsSigned (kind : TokenKind) : Prop :=
  (kind = .number ∨ kind = .percent) ∨ ∃ sign, signOp? kind = some sign

theorem BeginsSigned.mem_body {more : List Token} (begins : BeginsSigned t.kind) :
    body (t :: more) = t :: body more := by
  rw [body, List.filter_cons_of_pos]
  · rfl
  · rcases begins with (number | percent) | ⟨sign, sign?⟩
    · simp [number]
    · simp [percent]
    · unfold signOp? at sign?
      split at sign? <;> cases sign?
      · next minus => simp [minus]
      · next plus => simp [plus]

end Parser

open LineCalc.Parser

namespace Token

theorem lexeme_of_sign {c : Char} (sign : c = '-' ∨ c = '+') (cs : List Char) :
    BeginsSigned (lexeme {} c cs).1 := by
  have noBreak : (c == '\n') = false := by rcases sign with rfl | rfl <;> rfl
  have noComment : (c == '#' || c == '/' && cs.head? == some '/') = false := by
    rcases sign with rfl | rfl <;> rfl
  have noGlyph : isGlyph c = false := by rcases sign with rfl | rfl <;> decide +kernel
  have noNumber : startsNumber (c :: cs) = false := by
    have noDigit : Text.isDigit c = false := by rcases sign with rfl | rfl <;> decide +kernel
    have noPoint : (c == '.') = false := by rcases sign with rfl | rfl <;> rfl
    rw [startsNumber, noDigit, noPoint]
    rfl
  have noWord : Text.startsWord c = false := by rcases sign with rfl | rfl <;> decide +kernel
  have noPower : (c == '*' && cs.head? == some '*') = false := by rcases sign with rfl | rfl <;> rfl
  simp only [lexeme, noBreak, noComment, noGlyph, noNumber, noWord, noPower, Bool.false_eq_true,
    if_false]
  split
  · exact .inl (numeral_kind cs)
  · rcases sign with rfl | rfl
    · exact .inr ⟨.minus, rfl⟩
    · exact .inr ⟨.plus, rfl⟩

/-- A text that begins with a sign begins with a number or with the sign alone. -/
theorem ofText_of_sign {text : String} {c : Char} {cs : List Char} (sign : c = '-' ∨ c = '+')
    (begins : text.toList = c :: cs) :
    ∃ t more, ofText text = t :: more ∧ BeginsSigned t.kind := by
  have visible : isGap c = false := by rcases sign with rfl | rfl <;> rfl
  rw [ofText, begins, lexFrom_of_lexeme visible rfl]
  exact ⟨_, _, rfl, lexeme_of_sign sign cs⟩

end Token

/-- What a sign at the beginning of a text is read as. -/
inductive Readings (first : TokenKind) : Statement → Expr → Prop
  /-- It belongs to the number after it, in both ways. -/
  | number {e : Expr} : first = .number ∨ first = .percent → Readings first (.expr e) e
  /-- In a line it goes on from the previous result. -/
  | sign {sign : SignOp} {e : Expr} : signOp? first = some sign →
      Readings first (.expr (.resume sign.toBinary e)) (e.signFirst sign)

theorem parseStatement_number {src : Source} {t : Token} {ts : List Token}
    (number : t.kind = .number ∨ t.kind = .percent) : parseStatement src (t :: ts) =
      (parseExpression src (t :: ts)).map (·.behind 0 [] .expr) := by
  rcases number with kind | kind <;> simp [parseStatement, kind, binaryOp?]

theorem parseStatement_sign {src : Source} {t : Token} {ts : List Token} {sign : SignOp}
    (sign? : signOp? t.kind = some sign) : parseStatement src (t :: ts) =
      (parseExpression src ts).map (·.behind 1 [] (.expr <| .resume sign.toBinary ·)) := by
  have noWord : (t.kind == .word) = false := by
    cases kind : t.kind <;> simp_all [signOp?]
  simp [parseStatement, noWord, binaryOp?_of_signOp? sign?]

/-- The two readings of a text that begins with a sign. -/
theorem parse_of_sign {text : String} {c : Char} {cs : List Char} {line : Line}
    (sign : c = '-' ∨ c = '+') (begins : text.toList = c :: cs)
    (parsed : Line.parse text = .ok (line, [])) :
    ∃ first more e, Token.ofText text = first :: more ∧ Expr.parse text = .ok (some e, []) ∧
      Readings first.kind line.statement e := by
  obtain ⟨t, more, tokens, kind⟩ := Token.ofText_of_sign sign begins
  have nonempty : text.isEmpty = false := by
    refine Bool.eq_false_iff.mpr fun empty => ?_
    rw [String.isEmpty_iff.mp empty] at begins
    cases begins
  rw [Line.parse, parseTokens, tokens, kind.mem_body] at parsed
  simp only [nonempty, Bool.false_eq_true, if_false] at parsed
  obtain ⟨p, statement, made⟩ := map_ok_iff.mp parsed
  obtain ⟨rfl, problems⟩ := Prod.mk.inj made
  obtain ⟨-, none⟩ := List.append_eq_nil_iff.mp problems
  have plain : Expr.parse text =
      (parseExpression ⟨some text.toList, endOf (t :: more)⟩ (t :: body more)).map fun p =>
        (some p.value, p.problems) := by
    rw [Expr.parse, tokens, kind.mem_body]
    rfl
  rcases kind with number | ⟨sign, sign?⟩
  · rw [parseStatement_number number] at statement
    obtain ⟨q, whole, rfl⟩ := map_ok_iff.mp statement
    refine ⟨t, more, q.value, tokens, ?_, .number number⟩
    rw [plain]
    exact map_ok_iff.mpr ⟨q, whole, congrArg (some q.value, ·) none⟩
  · rw [parseStatement_sign sign?] at statement
    obtain ⟨q, whole, rfl⟩ := map_ok_iff.mp statement
    refine ⟨t, more, q.value.signFirst sign, tokens, ?_, .sign sign?⟩
    rw [plain, parseExpression_signed sign?, whole]
    exact congrArg (fun problems => Except.ok (some (q.value.signFirst sign), problems)) none

end LineCalc
