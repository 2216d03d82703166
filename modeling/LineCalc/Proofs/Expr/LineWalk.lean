import LineCalc.Proofs.Expr.Cursor
import LineCalc.Proofs.Token.Cover

/-!
# Lines with the cursor

The cursor goes over all tokens of a line but comments and line ends. Where the mark of the end is
the last token and no other one, and the numerals have amounts, the walk over a line comes to an end
with what the parser makes of the line, and the cursor is on one of the tokens all the way.

Results:
1. `statement_runs`, `line_runs`, `bare_runs`: the walk over a line is what the parser makes of it.
2. `cursor_on_tokens`: where the cursor is, what calls use, and what is noted.
-/

namespace LineCalc.Parser

variable {α : Type} {tokens ts rest : List Token} {src : Source} {t u : Token} {s : Walker}
  {short : Prop} {fuel pos : Nat} {raw : String}

/-! ## Rows of tokens -/

/-- The mark of the end is the last token, and no other one. -/
def EndsOnce (tokens : List Token) : Prop :=
  ∃ front last, tokens = front ++ [last] ∧ last.kind = .finish ∧ ∀ t ∈ front, t.kind ≠ .finish

theorem endsOnce_ofText (text : String) : EndsOnce (Token.ofText text) := by
  obtain ⟨front, eq, others⟩ := (Token.covers_ofText text).finish_last
  exact ⟨front, _, eq, rfl, fun t mem => (others t mem).1⟩

/-- The tokens that the cursor goes over. -/
def row (tokens : List Token) : List Token :=
  tokens.filter fun t => t.kind != .comment && t.kind != .newline

/-- The tokens from a position up to the mark of the end. -/
def ahead (tokens : List Token) (pos : Nat) : List Token := (tokens.drop pos).dropLast

theorem EndsOnce.endOf_eq {front : List Token} (finish : t.kind = .finish)
    (others : ∀ u ∈ front, u.kind ≠ .finish) : endOf (front ++ [t]) = t.pos := by
  have none : front.find? (·.kind == .finish) = none :=
    List.find?_eq_none.mpr fun u mem found => others u mem (beq_iff_eq.mp found)
  simp [endOf, List.find?_append, none, finish]

/-- In front of the mark of the end are the tokens that the parser looks at. -/
theorem EndsOnce.row_eq (h : EndsOnce tokens) : ∃ last, row tokens = body tokens ++ [last] ∧
    last.kind = .finish ∧ last.pos = endOf tokens := by
  obtain ⟨front, last, rfl, finish, others⟩ := h
  refine ⟨last, ?_, finish, (endOf_eq finish others).symm⟩
  have same : front.filter (fun t => t.kind != .comment && t.kind != .newline) =
      front.filter fun t => t.kind != .comment && t.kind != .newline && t.kind != .finish :=
    List.filter_congr fun t mem => by simp [others t mem]
  simp [row, body, finish, same]

theorem kind_of_mem_body (mem : t ∈ body tokens) : t.kind ≠ .finish := by
  intro finish
  simpa [finish] using (List.mem_filter.mp mem).2

theorem EndsOnce.stands (h : EndsOnce tokens) (endPos : src.endPos = endOf tokens) :
    Stands (row tokens) src 0 (body tokens) := by
  obtain ⟨last, eq, finish, last_pos⟩ := h.row_eq
  exact ⟨[], last, by simpa using eq, rfl, finish, last_pos.trans endPos.symm,
    fun t => kind_of_mem_body⟩

theorem AreWorth.row (h : AreWorth tokens) : AreWorth (row tokens) :=
  fun t mem => h t (List.mem_of_mem_filter mem)

/-- The same from any position in the row. -/
theorem Stands.ahead (h : Stands tokens src 0 ts) (found : tokens[pos]? = some t) :
    Stands tokens src pos (ahead tokens pos) ∧
      (t.kind ≠ .finish → 0 < (ahead tokens pos).length) := by
  obtain ⟨bound, rfl⟩ := List.getElem?_eq_some_iff.mp found
  have le : pos ≤ ts.length := by
    rw [h.length] at bound
    omega
  have eq : Parser.ahead tokens pos = ts.drop pos := by
    obtain ⟨front, last, rfl, nil, -⟩ := h
    rw [List.eq_nil_of_length_eq_zero nil, List.nil_append, Parser.ahead,
      List.drop_append_of_le_length le, List.dropLast_concat]
  have stands := h.drop le
  rw [Nat.zero_add, ← eq] at stands
  refine ⟨stands, fun inner => ?_⟩
  obtain ⟨u, looks, first⟩ := stands.get
  rw [found] at looks
  cases looks
  cases left : Parser.ahead tokens pos with
  | nil =>
    rw [left] at first
    exact absurd first.kind inner
  | cons u rest => exact Nat.succ_pos _

/-! ## Lines -/

theorem statement_runs (worth : AreWorth tokens) {p : Parsed Statement}
    (h : Stands tokens src s.pos (t :: ts)) (eq : parseStatement src (t :: ts) = .ok p) :
    Runs (fuel < 8 * (t :: ts).length + 6) (Walk.statement tokens src fuel) s p := by
  have weaker : ∀ {rest : List Token}, rest.length ≤ (t :: ts).length →
      fuel < 8 * rest.length + 6 → fuel < 8 * (t :: ts).length + 6 := by omega
  refine .current h fun u first => .peek h fun v second => ?_
  obtain rfl := first.eq
  rw [second.kind, kindOf_beq (by decide), List.drop_one, List.tail_cons]
  simp only [parseStatement] at eq
  split at eq
  · next assigns =>
    obtain ⟨e, found, rfl⟩ := map_ok_iff.mp eq
    rw [if_pos assigns]
    cases ts with
    | nil => simp [startsWith] at assigns
    | cons w rest =>
      have two : e.behind 2 [] (Statement.assign u.text) =
          Parsed.behind (Parsed.behind ⟨.assign u.text e.value, e.used, e.problems⟩ 1 [] id)
            1 [] id := by
        simp [Parsed.behind, ← Nat.add_assoc]
      rw [two]
      refine .advance h fun s h => .advance h fun s h => ?_
      exact ((expression_runs worth fuel h found).map (Statement.assign u.text)).mono
        (weaker (Nat.le_add_right _ 2))
  · next plain =>
    rw [if_neg plain]
    cases op? : binaryOp? u.kind with
    | some op =>
      rw [op?] at eq
      obtain ⟨e, found, rfl⟩ := map_ok_iff.mp eq
      rw [Parsed.behind_eq]
      refine .advance h fun s h => ?_
      exact ((expression_runs worth fuel h found).map fun e => Statement.expr (.resume op e)).mono
        (weaker (Nat.le_succ _))
    | none =>
      rw [op?] at eq
      simp only at eq ⊢
      split at eq
      · next converts =>
        obtain rfl := Except.ok.inj eq
        rw [if_pos converts, Parsed.behind_eq]
        refine .advance h fun s h => ?_
        exact (target_runs h).map fun target => Statement.expr (.resumeConversion target)
      · next begins =>
        obtain ⟨e, found, rfl⟩ := map_ok_iff.mp eq
        rw [if_neg begins]
        have same : e.behind 0 [] Statement.expr = ⟨.expr e.value, e.used, e.problems⟩ := by
          simp [Parsed.behind]
        rw [same]
        exact (expression_runs worth fuel h found).map Statement.expr

/-- What the parser knows of the text of a line. -/
def sourceOf (raw : String) (tokens : List Token) : Source :=
  ⟨if raw.isEmpty then none else some raw.toList, endOf tokens⟩

/-- What a line without tokens says. -/
def remark (tokens : List Token) : Statement :=
  match lastComment? tokens with
  | some text => .comment text
  | none => .empty

/-- The walk over a line. -/
def Walk.line (raw : String) (tokens : List Token) (fuel : Nat) : Walk Line := do
  let t ← current (row tokens)
  if t.kind == .finish then return ⟨remark tokens, lastComment? tokens, raw⟩
  else
    let statement ← statement (row tokens) (sourceOf raw tokens) fuel
    return ⟨statement, lastComment? tokens, raw⟩

/-- The walk over a bare expression; there is none without tokens. -/
def Walk.bare (src : Source) (tokens : List Token) (fuel : Nat) : Walk (Option Expr) := do
  let t ← current (row tokens)
  if t.kind == .finish then return none
  else
    let e ← expression (row tokens) src fuel
    return some e

/-- A bare expression from its tokens. -/
def parseBare (src : Source) (tokens : List Token) :
    Except Fault (Option Expr × List Diagnostic) :=
  if (body tokens).isEmpty then .ok (none, [])
  else (parseExpression src (body tokens)).map fun p => (some p.value, p.problems)

theorem parse_eq_parseBare (text : String) : Expr.parse text =
    parseBare ⟨some text.toList, endOf (Token.ofText text)⟩ (Token.ofText text) :=
  rfl

/-- Calls of a part from the tokens of a row. A call that is not cut off reads what the parser reads
there, leaves the cursor on a token and notes problems at tokens only. It uses a token unless it
begins at the mark of the end. No call is cut off that may make eight calls within calls for each
token of the row. -/
def MovesOn (tokens : List Token) (part : List Token → Outcome α) (call : Nat → Walk α) : Prop :=
  ∀ (fuel : Nat) (s : Walker) (t : Token), tokens[s.pos]? = some t →
    fuel < 8 * tokens.length ∧ call fuel s = .error .outOfFuel ∨
    ∃ p, part (ahead tokens s.pos) = .ok p ∧ call fuel s = .ok (p.value, s.after p) ∧
      s.pos + p.used < tokens.length ∧ (t.kind ≠ .finish → 0 < p.used) ∧
      ∀ d ∈ p.problems, IsNoted tokens d

/-- A walk from the first token, with some problems noted before, is cut off or comes to what the
parser makes of all tokens. The cursor is on a token then, and the problems are at tokens. -/
def ComesTo (tokens : List Token) (noted : List Diagnostic) (call : Nat → Walk α)
    (whole : Except Fault (α × List Diagnostic)) : Prop :=
  ∃ a problems, whole = .ok (a, problems) ∧ (∀ d ∈ problems, IsNoted tokens d) ∧
    ∀ fuel, fuel < 8 * tokens.length ∧ call fuel ⟨0, noted⟩ = .error .outOfFuel ∨
      ∃ pos < tokens.length, call fuel ⟨0, noted⟩ = .ok (a, ⟨pos, problems⟩)

theorem movesOn_of_runs {part : List Token → Outcome α} {call : Nat → Walk α}
    (h : Stands tokens src 0 ts) (worth : AreWorth tokens)
    (reads : ∀ ts, IsPart tokens src ts →
      IsRead tokens (min ts.length 1) ts.length (part ts))
    (runs : ∀ fuel (s : Walker) ts p, Stands tokens src s.pos ts → part ts = .ok p →
      Runs (fuel < 8 * ts.length + 6) (call fuel) s p) : MovesOn tokens part call := by
  intro fuel s t found
  obtain ⟨stands, inner⟩ := h.ahead found
  obtain ⟨p, eq, within⟩ := reads _ (stands.isPart worth)
  have count := stands.length
  rcases runs fuel s _ p stands eq with done | ⟨short, cut⟩
  · refine .inr ⟨p, eq, done, ?_, ?_, within.noted⟩
    · have most := within.most
      omega
    · intro kind
      have some := inner kind
      have least := within.least
      omega
  · exact .inl ⟨by omega, cut⟩

theorem comesTo_of_runs {p : Parsed α} {noted : List Diagnostic} {call : Nat → Walk α}
    {whole : Except Fault (α × List Diagnostic)} (h : Stands tokens src 0 ts)
    (before : ∀ d ∈ noted, IsNoted tokens d)
    (eq : whole = .ok (p.value, noted ++ p.problems)) (within : Within tokens 0 ts.length p)
    (runs : ∀ fuel, Runs (fuel < 8 * ts.length + 6) (call fuel) ⟨0, noted⟩ p) :
    ComesTo tokens noted call whole := by
  have count := h.length
  refine ⟨p.value, noted ++ p.problems, eq, ?_, fun fuel => ?_⟩
  · exact fun d mem => (List.mem_append.mp mem).elim (before d) (within.noted d)
  · rcases runs fuel with done | ⟨short, cut⟩
    · refine .inr ⟨0 + p.used, ?_, done⟩
      have most := within.most
      omega
    · exact .inl ⟨by omega, cut⟩

/-- At the front of a row the cursor stands on the mark of the end exactly if there is no other
token. -/
theorem current_finish (first : IsFirst tokens src ts t)
    (inner : ∀ u ∈ ts, u.kind ≠ .finish) : (t.kind == .finish) = ts.isEmpty := by
  rw [first.kind]
  cases ts with
  | nil => rfl
  | cons u rest => exact beq_eq_false_iff_ne.mpr (inner u List.mem_cons_self)

theorem line_runs (ends : EndsOnce tokens) (worth : AreWorth tokens) (raw : String) :
    ∃ p : Parsed Line,
      parseTokens raw tokens = .ok (p.value, strayProblems (body tokens) ++ p.problems) ∧
      Within (row tokens) 0 (body tokens).length p ∧
      ∀ (fuel : Nat) (noted : List Diagnostic), Runs (fuel < 8 * (body tokens).length + 6)
        (Walk.line raw tokens fuel) ⟨0, noted⟩ p := by
  have stands : Stands (row tokens) (sourceOf raw tokens) 0 (body tokens) := ends.stands rfl
  have inner : ∀ u ∈ body tokens, u.kind ≠ .finish := fun u => kind_of_mem_body
  rw [parseTokens]
  generalize body tokens = ts at *
  match ts with
  | [] =>
    refine ⟨⟨⟨remark tokens, lastComment? tokens, raw⟩, 0, []⟩, rfl, .none, fun fuel noted => ?_⟩
    refine .current (s := ⟨0, noted⟩) stands fun t first => ?_
    rw [current_finish first inner]
    exact .pure _
  | u :: rest =>
    obtain ⟨p, eq, within⟩ := parseStatement_isRead (stands.isPart worth.row)
    refine ⟨⟨⟨p.value, lastComment? tokens, raw⟩, p.used, p.problems⟩, ?_,
      ⟨within.least, within.most, within.noted⟩, fun fuel noted => ?_⟩
    · show (parseStatement (sourceOf raw tokens) (u :: rest)).map _ = _
      rw [eq]
      rfl
    · refine .current (s := ⟨0, noted⟩) stands fun t first => ?_
      rw [current_finish first inner]
      exact (statement_runs (s := ⟨0, noted⟩) worth.row stands eq).map
        fun v => (⟨v, lastComment? tokens, raw⟩ : Line)

theorem bare_runs (ends : EndsOnce tokens) (worth : AreWorth tokens)
    (endPos : src.endPos = endOf tokens) :
    ∃ p : Parsed (Option Expr), parseBare src tokens = .ok (p.value, p.problems) ∧
      Within (row tokens) 0 (body tokens).length p ∧
      ∀ fuel, Runs (fuel < 8 * (body tokens).length + 6) (Walk.bare src tokens fuel) ⟨0, []⟩ p := by
  have stands := ends.stands endPos
  have inner : ∀ u ∈ body tokens, u.kind ≠ .finish := fun u => kind_of_mem_body
  rw [parseBare]
  generalize body tokens = ts at *
  match ts with
  | [] =>
    refine ⟨⟨none, 0, []⟩, rfl, .none, fun fuel => ?_⟩
    refine .current (s := ⟨0, []⟩) stands fun t first => ?_
    rw [current_finish first inner]
    exact .pure _
  | u :: rest =>
    obtain ⟨p, eq, within⟩ := parseExpression_isRead src _ (stands.isPart worth.row)
    refine ⟨⟨some p.value, p.used, p.problems⟩, ?_,
      ⟨Nat.zero_le _, within.most, within.noted⟩, fun fuel => ?_⟩
    · show (parseExpression src (u :: rest)).map _ = _
      rw [eq]
      rfl
    · refine .current (s := ⟨0, []⟩) stands fun t first => ?_
      rw [current_finish first inner]
      exact (expression_runs (s := ⟨0, []⟩) worth.row fuel stands eq).map some

/-! ## The cursor -/

theorem EndsOnce.strayProblems_eq (h : EndsOnce tokens) :
    strayProblems (row tokens) = strayProblems (body tokens) := by
  obtain ⟨last, eq, finish, -⟩ := h.row_eq
  simp [strayProblems, eq, finish]

theorem noted_of_stray {d : Diagnostic} (mem : d ∈ strayProblems tokens) : IsNoted tokens d := by
  obtain ⟨t, among, rfl⟩ := List.mem_map.mp mem
  exact .ofSyntax (List.mem_of_mem_filter among)

/-- The walk over a line and that over a bare expression come to their end, wherever the calls
within them are, on tokens all the way and with what the parser makes of the tokens. So do the calls
of an operand and of an expression, which use a token unless they begin at the mark of the end.
Problems are problems of form at tokens. -/
theorem cursor_on_tokens (ends : EndsOnce tokens) (worth : AreWorth tokens) (raw : String) :
    ComesTo (row tokens) (strayProblems (row tokens)) (Walk.line raw tokens)
      (parseTokens raw tokens) ∧
    ∀ src : Source, src.endPos = endOf tokens →
      ComesTo (row tokens) [] (Walk.bare src tokens) (parseBare src tokens) ∧
      MovesOn (row tokens) (parseExpression src) (Walk.expression (row tokens) src) ∧
      MovesOn (row tokens) (parseOperand src) (Walk.operand (row tokens) src) := by
  refine ⟨?_, fun src endPos => ⟨?_, ?_, ?_⟩⟩
  · obtain ⟨p, eq, within, runs⟩ := line_runs ends worth raw
    have stands : Stands (row tokens) (sourceOf raw tokens) 0 (body tokens) := ends.stands rfl
    rw [← ends.strayProblems_eq] at eq
    exact comesTo_of_runs stands (fun d => noted_of_stray) eq within (runs · _)
  · obtain ⟨p, eq, within, runs⟩ := bare_runs ends worth endPos
    exact comesTo_of_runs (ends.stands endPos) nofun eq within runs
  · refine movesOn_of_runs (ends.stands endPos) worth.row (parseExpression_isRead src) ?_
    exact fun fuel s ts p h eq => expression_runs worth.row fuel h eq
  · refine movesOn_of_runs (ends.stands endPos) worth.row (parseOperand_isRead src) ?_
    exact fun fuel s ts p h eq => (operand_runs worth.row fuel h eq).mono (by omega)

/-- The tokens of `$ + (2 # half`. -/
def exUnclosed : List Token :=
  [⟨.dollar, "$", 0, 1, 1⟩, ⟨.plus, "+", 2, 1, 3⟩, ⟨.leftParen, "(", 4, 1, 5⟩,
    ⟨.number, "2", 5, 1, 6⟩, ⟨.comment, "# half", 7, 1, 8⟩, ⟨.finish, "", 13, 1, 14⟩]

theorem cursor_on_tokens_exUnclosed :
    EndsOnce exUnclosed ∧ AreWorth exUnclosed ∧ endOf exUnclosed = 13 ∧
      ComesTo (row exUnclosed) [] (Walk.line "$ + (2 # half" exUnclosed)
        (parseTokens "$ + (2 # half" exUnclosed) ∧
      ComesTo (row exUnclosed) [] (Walk.bare ⟨none, 13⟩ exUnclosed)
        (parseBare ⟨none, 13⟩ exUnclosed) ∧
      MovesOn (row exUnclosed) (parseExpression ⟨none, 13⟩)
        (Walk.expression (row exUnclosed) ⟨none, 13⟩) ∧
      MovesOn (row exUnclosed) (parseOperand ⟨none, 13⟩)
        (Walk.operand (row exUnclosed) ⟨none, 13⟩) := by
  have ends : EndsOnce exUnclosed := ⟨exUnclosed.dropLast, _, rfl, rfl, by decide⟩
  have two : ∃ x, amountOf "2" = .ok x := ⟨2, eq_ok_of_toOption (by decide +kernel)⟩
  have worth : AreWorth exUnclosed := by
    intro t mem numeral
    have only : t.text = "2" := by
      revert numeral
      fin_cases mem <;> simp
    rwa [only]
  have law := cursor_on_tokens ends worth "$ + (2 # half"
  exact ⟨ends, worth, rfl, law.1, law.2 ⟨none, 13⟩ rfl⟩

end LineCalc.Parser
