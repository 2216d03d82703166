import LineCalc.Proofs.Expr.Reading
import Mathlib.Data.List.Find

/-!
# Where parsing stops

Of the texts that the lexer can scan the parser has a tree for all but those in which it comes to a
numeral with a digit that is not decimal.

Results:
1. `parsing_stops_at_lone_digit`: this for a line, for the lines of a document and for a bare
   expression.
2. `superscript_not_parsed`: there are such texts.
-/

namespace LineCalc.Parser

variable {α β : Type} {t : Token} {ts : List Token}

/-! ## Texts -/

/-- The outcome of reading a text is the fault of the first of some tokens with a digit that is not
decimal, or a result if there is none. -/
def StopsAtLoneDigit (ts : List Token) (outcome : Except Fault α) : Prop :=
  match ts.find? Token.hasLoneDigit with
  | none => ∃ r, outcome = .ok r
  | some t => outcome = .error t.fault

/-- The tokens that a part takes up, whatever amounts its numerals have. -/
def taken (read : List Token → Outcome α) (ts : List Token) : List Token :=
  match read (ts.map Token.zeroed) with
  | .ok p => ts.take p.used
  | .error _ => []

theorem StopsAtLoneDigit.map {outcome : Except Fault α} {f : α → β}
    (h : StopsAtLoneDigit ts outcome) : StopsAtLoneDigit ts (outcome.map f) := by
  unfold StopsAtLoneDigit at *
  split at h
  · obtain ⟨r, rfl⟩ := h
    exact ⟨f r, rfl⟩
  · rw [h]
    rfl

theorem StopsAtLoneDigit.bind {us : List Token} {outcome : Except Fault α}
    {next : α → Except Fault β} (first : StopsAtLoneDigit ts outcome)
    (second : ∀ r, StopsAtLoneDigit us (next r)) :
    StopsAtLoneDigit (ts ++ us) (outcome >>= next) := by
  unfold StopsAtLoneDigit at first ⊢
  rw [List.find?_append]
  split at first
  · next none =>
    obtain ⟨r, rfl⟩ := first
    rw [none, Option.none_or]
    exact second r
  · next t found =>
    rw [found, first]
    rfl

theorem Reads.stopsAtLoneDigit {read : List Token → Outcome α}
    (h : Reads ts 0 (read ts) (read (ts.map Token.zeroed)))
    (scanned : ∀ t ∈ ts, t.unreadable = t.hasLoneDigit) :
    StopsAtLoneDigit (taken read ts) (read ts) := by
  obtain ⟨p, hp, h⟩ := h
  -- `Reads` is about all tokens; for those of a text a numeral is unreadable by a lone digit only.
  have agree : (ts.take p.used).find? Token.hasLoneDigit =
      (ts.take p.used).find? Token.unreadable :=
    List.find?_congr fun t mem => (scanned t (List.mem_of_mem_take mem)).symm
  rw [Nat.zero_add] at h
  unfold StopsAtLoneDigit taken
  rw [hp]
  simp only
  rw [agree]
  cases found : (ts.take p.used).find? Token.unreadable with
  | none =>
    rw [found] at h
    obtain ⟨q, hq, _⟩ := h
    exact ⟨q, hq⟩
  | some t =>
    rw [found] at h
    exact h

theorem unreadable_eq_hasLoneDigit {text : String} (h : t ∈ Token.ofText text) :
    t.unreadable = t.hasLoneDigit := by
  cases numeral : t.isNumeral with
  | false => simp [Token.unreadable, Token.hasLoneDigit, numeral]
  | true =>
    rw [Bool.eq_iff_iff, ← floatOf?_valueChars_eq_none_iff h numeral]
    simp [Token.unreadable, numeral]

theorem scanned_of_mem_body {text : String} :
    ∀ t ∈ body (Token.ofText text), t.unreadable = t.hasLoneDigit :=
  fun _ mem => unreadable_eq_hasLoneDigit (List.mem_filter.mp mem).1

/-- The tokens that the tree of a line is read from. -/
def lineTokens (text : String) : List Token :=
  let source := if text.isEmpty then none else some text.toList
  taken (parseStatement ⟨source, endOf (Token.ofText text)⟩) (body (Token.ofText text))

/-- The tokens that the tree of a bare expression is read from. -/
def exprTokens (text : String) : List Token :=
  taken (parseExpression ⟨some text.toList, endOf (Token.ofText text)⟩) (body (Token.ofText text))

theorem taken_nil (read : List Token → Outcome α) : taken read [] = [] := by
  unfold taken
  split <;> simp

theorem amountOf_stopsAtLoneDigit {text : String} (h : t ∈ Token.ofText text)
    (numeral : t.isNumeral = true) : StopsAtLoneDigit [t] (amountOf t.text) := by
  unfold StopsAtLoneDigit
  rw [List.find?_singleton, ← unreadable_eq_hasLoneDigit h]
  cases readable : t.unreadable with
  | false => exact amountOf_of_readable numeral readable
  | true => exact amountOf_of_unreadable readable

theorem parse_stopsAtLoneDigit (text : String) :
    StopsAtLoneDigit (lineTokens text) (Line.parse text) := by
  rw [Line.parse, parseTokens, lineTokens]
  cases tokens : body (Token.ofText text) with
  | nil =>
    rw [taken_nil]
    exact ⟨_, rfl⟩
  | cons t ts =>
    refine StopsAtLoneDigit.map (Reads.stopsAtLoneDigit (parseStatement_reads _ _) ?_)
    rw [← tokens]
    exact scanned_of_mem_body

theorem parseExpr_stopsAtLoneDigit (text : String) :
    StopsAtLoneDigit (exprTokens text) (Expr.parse text) := by
  rw [Expr.parse, exprTokens]
  cases tokens : body (Token.ofText text) with
  | nil =>
    rw [taken_nil]
    exact ⟨_, rfl⟩
  | cons t ts =>
    refine StopsAtLoneDigit.map (Reads.stopsAtLoneDigit (parseExpression_reads _ _) ?_)
    rw [← tokens]
    exact scanned_of_mem_body

theorem mapM_stopsAtLoneDigit {read : α → Except Fault β} {tokens : α → List Token}
    (h : ∀ a, StopsAtLoneDigit (tokens a) (read a)) (as : List α) :
    StopsAtLoneDigit (as.flatMap tokens) (as.mapM read) := by
  induction as with
  | nil => exact ⟨[], rfl⟩
  | cons a as ih =>
    rw [List.flatMap_cons, List.mapM_cons]
    exact (h a).bind fun r => by
      rw [← List.append_nil (as.flatMap tokens)]
      exact ih.bind fun rs => ⟨_, rfl⟩

theorem parseAll_stopsAtLoneDigit (text : String) :
    StopsAtLoneDigit ((Text.lines text).flatMap lineTokens) (Line.parseAll text) := by
  have tokens : (Text.lines text).flatMap lineTokens =
      (Text.lines text).zipIdx.flatMap fun l => lineTokens l.1 :=
    calc (Text.lines text).flatMap lineTokens
      _ = ((Text.lines text).zipIdx.map Prod.fst).flatMap lineTokens := by
        rw [List.zipIdx_map_fst]
      _ = _ := List.flatMap_map _ _ _
  rw [tokens, Line.parseAll]
  refine mapM_stopsAtLoneDigit (fun l => ?_) _
  obtain ⟨line, i⟩ := l
  exact (parse_stopsAtLoneDigit line).map

/-- Parsing has a result unless one of the numerals it takes up has a digit that is not decimal, and
then ends in the fault of the first such numeral. So it is for a line, for the lines of a document
and for a bare expression. -/
theorem parsing_stops_at_lone_digit (text : String) :
    (∀ t ∈ Token.ofText text, t.isNumeral = true → StopsAtLoneDigit [t] (amountOf t.text)) ∧
    StopsAtLoneDigit (lineTokens text) (Line.parse text) ∧
    StopsAtLoneDigit ((Text.lines text).flatMap lineTokens) (Line.parseAll text) ∧
    StopsAtLoneDigit (exprTokens text) (Expr.parse text) :=
  ⟨fun _ => amountOf_stopsAtLoneDigit, parse_stopsAtLoneDigit text,
    parseAll_stopsAtLoneDigit text, parseExpr_stopsAtLoneDigit text⟩

/-! ## A superscript -/

theorem ofText_exSuperscript :
    Token.ofText "2²" = [⟨.number, "2²", 0, 1, 1⟩, ⟨.finish, "", 2, 1, 3⟩] := by
  have number : Token.lexeme {} '2' ['²'] = (.number, 1) := by decide +kernel
  calc Token.lexFrom {} "2²".toList
    _ = ⟨.number, "2²", 0, 1, 1⟩ :: Token.lexFrom ⟨2, 1, 3, some '²'⟩ [] :=
      Token.lexFrom_of_lexeme rfl number
    _ = _ := by rw [Token.lexFrom]

/-- A number with a superscript has no tree. -/
theorem superscript_not_parsed : Line.parse "2²" = .error (.notANumeral "2²") := by
  have unread : amountOf "2²" = .error (.notANumeral "2²") := by
    have none : Decimal.floatOf? (valueChars "2²") = none := by decide +kernel
    rw [amountOf, none]
    rfl
  rw [Line.parse, ofText_exSuperscript]
  simp [parseTokens, parseStatement, parseExpression, parseOperators, parseOperand, parsePrimary,
    parseSimple, parseNumber, unread, body, binaryOp?, signOp?, Except.map]

end LineCalc.Parser
