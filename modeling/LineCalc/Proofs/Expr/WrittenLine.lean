import LineCalc.Proofs.Expr.Rendering

/-!
# Lines as they are written

A line is written as its statement, with its comment behind that. The blanks at the end of a comment
are cut off, which leaves it a comment.

Results:
1. `spelled_statement`: the text of a plain statement is read as a statement with its meaning.
2. `parse_of_render`: this for a line.
-/

namespace LineCalc

open LineCalc.Decimal LineCalc.Parser LineCalc.Token LineCalc.Text

variable {opens : Bool} {cs ds rest : List Char} {e e' : Expr} {st st' : Statement}
  {text comment : String}
  {t : Token} {ts more : List Token} {shapes : List (TokenKind × String)}

/-! ## Comments -/

/-- Some characters are a comment: they begin with its sign and do not go on in another line. -/
def IsComment (cs : List Char) : Prop :=
  (∃ ds, cs = '#' :: ds ∨ cs = '/' :: '/' :: ds) ∧ '\n' ∉ cs

theorem Token.isComment_of_mem (h : t ∈ ofText text) (comment : t.kind = .comment) :
    IsComment t.text.toList := by
  obtain ⟨cur, c, cs, rest, text, found⟩ := lexeme_of_mem_text h (by simp [comment])
  obtain ⟨begins, length⟩ := comment_of_lexeme (comment ▸ found)
  have oneLine : cs = (cs ++ rest).takeWhile (· != '\n') :=
    calc cs = (cs ++ rest).take cs.length := List.take_left.symm
      _ = (cs ++ rest).takeWhile (· != '\n') := by
        rw [length]
        exact (List.prefix_iff_eq_take.mp (List.takeWhile_prefix _)).symm
  have noBreak : '\n' ∉ cs := by
    intro mem
    rw [oneLine] at mem
    simpa using List.mem_takeWhile_imp mem
  rw [text, String.toList_ofList]
  refine ⟨?_, ?_⟩
  · rcases begins with rfl | ⟨rfl, second⟩
    · exact ⟨cs, .inl rfl⟩
    · cases cs with
      | nil =>
        obtain ⟨rest, rfl⟩ := List.head?_eq_some_iff.mp second
        simp at oneLine
      | cons d cs =>
        obtain rfl : d = '/' := by simpa using second
        exact ⟨cs, .inr rfl⟩
  · rw [List.mem_cons, not_or]
    refine ⟨?_, noBreak⟩
    rcases begins with rfl | ⟨rfl, -⟩ <;> decide

theorem Token.scans_comment (h : IsComment cs) :
    Scans opens cs [] [(.comment, String.ofList cs)] := by
  obtain ⟨⟨ds, begins⟩, oneLine⟩ := h
  have all (ds : List Char) (mem : '\n' ∉ ds) : ds.takeWhile (· != '\n') = ds := by
    rw [List.takeWhile_eq_self_iff]
    intro c h
    simpa using ne_of_mem_of_not_mem h mem
  rcases begins with rfl | rfl
  · refine .lexeme (by decide) fun cur _ => ?_
    rw [List.append_nil, lexeme, if_neg (by decide), if_pos (by simp),
      all ds fun mem => oneLine (List.mem_cons_of_mem _ mem)]
  · refine .lexeme (by decide) fun cur _ => ?_
    rw [List.append_nil, lexeme, if_neg (by decide), if_pos (by simp),
      all _ fun mem => oneLine (List.mem_cons_of_mem _ mem)]

/-- The text without the blanks at its end. -/
def trimEnd (cs : List Char) : List Char := (cs.reverse.dropWhile isBlank).reverse

theorem trimEnd_cons {c : Char} (visible : isBlank c = false) (cs : List Char) :
    trimEnd (c :: cs) = c :: trimEnd cs := by
  have kept : [c].dropWhile isBlank = [c] := List.dropWhile_cons_of_neg (by simp [visible])
  rw [trimEnd, List.reverse_cons, List.dropWhile_append, kept]
  split
  · next none => simp [trimEnd, List.isEmpty_iff.mp none]
  · simp [trimEnd]

/-- Behind a visible character nothing in front of it is cut off. -/
theorem trimEnd_append {c : Char} (visible : isBlank c = false) (front cs : List Char) :
    trimEnd (front ++ c :: cs) = front ++ trimEnd (c :: cs) := by
  have kept : (c :: cs).reverse.dropWhile isBlank ≠ [] := by
    rw [ne_eq, List.dropWhile_eq_nil_iff]
    intro all
    have blank := all c (by simp)
    rw [visible] at blank
    cases blank
  rw [trimEnd, List.reverse_append, List.dropWhile_append, if_neg (by simpa using kept),
    List.reverse_append, List.reverse_reverse, trimEnd]

theorem isComment_trimEnd (h : IsComment cs) : IsComment (trimEnd cs) := by
  obtain ⟨⟨ds, begins⟩, oneLine⟩ := h
  have sub : trimEnd cs ⊆ cs := by
    intro c mem
    exact List.mem_reverse.mp ((List.dropWhile_sublist _).subset (List.mem_reverse.mp mem))
  have visible : isBlank '#' = false ∧ isBlank '/' = false := by decide
  refine ⟨⟨trimEnd ds, ?_⟩, fun mem => oneLine (sub mem)⟩
  rcases begins with rfl | rfl
  · exact .inl (trimEnd_cons visible.1 ds)
  · exact .inr (by rw [trimEnd_cons visible.2, trimEnd_cons visible.2])

/-- A comment behind a text is cut at its end only. -/
theorem trimOf_comment {c : Char} (visible : isBlank c = false) (h : IsComment ds) :
    trimOf isBlank (c :: cs ++ ' ' :: ds) = c :: cs ++ ' ' :: trimEnd ds := by
  obtain ⟨k, ks, rfl, first⟩ : ∃ k ks, ds = k :: ks ∧ isBlank k = false := by
    rcases h.1 with ⟨ks, rfl | rfl⟩
    · exact ⟨'#', ks, rfl, by decide⟩
    · exact ⟨'/', '/' :: ks, rfl, by decide⟩
  have front : (c :: cs ++ ' ' :: k :: ks).dropWhile isBlank = c :: cs ++ ' ' :: k :: ks :=
    List.dropWhile_cons_of_neg (by simp [visible])
  have before (behind : List Char) : c :: cs ++ ' ' :: behind = (c :: cs ++ [' ']) ++ behind := by
    simp
  rw [trimOf, front, before (k :: ks), before (trimEnd (k :: ks))]
  exact trimEnd_append first _ _

/-! ## Statements -/

/-- A statement says the same as another one, comments apart. -/
inductive Statement.Means : Statement → Statement → Prop
  | empty : Means .empty .empty
  | comment {text text' : String} : Means (.comment text') (.comment text)
  | expr {e e' : Expr} : (∀ s, e'.eval s = e.eval s) → e'.isContinuation = e.isContinuation →
      Means (.expr e') (.expr e)
  | assign {name : String} {e e' : Expr} : (∀ s, e'.eval s = e.eval s) →
      Means (.assign name e') (.assign name e)

/-- Some characters are scanned as tokens of these kinds and texts, of which the statement is
read. -/
structure SpelledLine (cs : List Char) (st : Statement) (shapes : List (TokenKind × String)) :
    Prop where
  visible : StartsVisible cs
  nonempty : shapes ≠ []
  kinds : ∀ shape ∈ shapes, shape.1 ∈ .equals :: inside
  scans : ∀ rest, Follows rest → Scans true cs rest shapes
  reads : ∀ src ts, ts.map shape = shapes →
    ∃ st' : Statement, st'.Means st ∧ parseStatement src ts = .ok ⟨st', ts.length, []⟩

theorem parseStatement_of_expression {src : Source} (kind : t.kind ∈ heads)
    (noEquals : startsWith .equals ts = false) : parseStatement src (t :: ts) =
      (parseExpression src (t :: ts)).map (·.behind 0 [] .expr) := by
  obtain ⟨noOperator, noConversion⟩ : binaryOp? t.kind = none ∧ t.kind ≠ .inWord := by
    generalize t.kind = kind at kind
    fin_cases kind <;> exact ⟨rfl, by decide⟩
  simp [parseStatement, noEquals, noOperator, noConversion]

theorem startsWith_equals (same : ts.map shape = shapes)
    (kinds : ∀ shape ∈ shapes, shape.1 ∈ inside) : startsWith .equals ts = false := by
  cases ts with
  | nil => rfl
  | cons t ts =>
    have kind : t.kind ∈ inside := kinds (shape t) (same ▸ List.mem_cons_self)
    simpa [startsWith] using ne_of_mem_of_not_mem kind (by decide)

theorem isContinuation_of_fromText {whole : Bool} (h : e.FromText whole) :
    e.isContinuation = false := by
  cases h <;> rfl

/-- What is read of the text of a whole expression, with nothing behind it. -/
theorem SpelledBy.readAll {first : List TokenKind}
    (h : SpelledBy .whole opens first cs (Expr.Means · e) shapes) (src : Source)
    (same : ts.map shape = shapes) :
    ∃ e', e'.Means e ∧ parseExpression src ts = .ok ⟨e', ts.length, []⟩ := by
  obtain ⟨e', means, read⟩ := h.reads src ts [] same nofun
  rw [List.append_nil] at read
  exact ⟨e', means, read⟩

theorem spelledLine_expr (h : e.FromText true) (visible : StartsVisible cs)
    (spelled : Spelled .whole true heads cs (Expr.Means · e)) :
    ∃ shapes, SpelledLine cs (.expr e) shapes := by
  obtain ⟨shapes, h'⟩ := spelled
  refine ⟨shapes, visible, ?_, fun shape mem => List.mem_cons_of_mem _ (h'.kinds shape mem),
    h'.scans, fun src ts same => ?_⟩
  · rintro rfl
    cases h'.begins
  · obtain ⟨e', means, read⟩ := h'.readAll src same
    refine ⟨.expr e', .expr means.value (means.fresh.trans (isContinuation_of_fromText h).symm), ?_⟩
    cases h'.begins with
    | intro kind =>
      obtain ⟨t, ts', rfl, first, -, behind⟩ := exists_token same
      have noEquals := startsWith_equals behind fun shape mem =>
        h'.kinds shape (List.mem_cons_of_mem _ mem)
      rw [parseStatement_of_expression (first ▸ kind) noEquals, read]
      simp [Except.map, Parsed.behind]

theorem spelledLine_resume {op : BinaryOp} (noMod : op ≠ .mod)
    (spelled : Spelled .whole true heads cs (Expr.Means · e)) :
    ∃ shapes, SpelledLine (op.symbol.toList ++ ' ' :: cs) (.expr (.resume op e)) shapes := by
  obtain ⟨c, symbol, mem, op?, kind⟩ := exists_sign noMod
  obtain ⟨shapes, h⟩ := spelled
  have sub : breaks ⊆ inside := by decide
  have sub' : ['+', '-', '*', '/', '^'] ⊆ ['+', '-', '*', '/', '^', '='] := by decide
  have visible : isBlank c = false := by
    fin_cases mem <;> decide
  rw [symbol]
  refine ⟨(punctuation c, String.ofList [c]) :: shapes, ⟨c, _, rfl, visible⟩, List.cons_ne_nil _ _,
    ?_, fun rest follows => .afterSign (sub' mem) (h.scans rest follows), fun src ts same => ?_⟩
  · exact List.forall_mem_cons.mpr ⟨List.mem_cons_of_mem _ (sub kind),
      fun shape mem => List.mem_cons_of_mem _ (h.kinds shape mem)⟩
  · obtain ⟨t, ts, rfl, first, -, behind⟩ := exists_token same
    obtain ⟨e', means, read⟩ := h.readAll src behind
    refine ⟨.expr (.resume op e'), .expr (fun s => ?_) rfl, ?_⟩
    · rw [Expr.eval, Expr.eval, means.value]
    · have op? : binaryOp? t.kind = some op := first ▸ op?
      have noWord : t.kind ≠ .word := by
        intro word
        rw [word] at op?
        cases op?
      simp [parseStatement, noWord, op?, read, Except.map, Parsed.behind, Nat.add_comm]

theorem spelledLine_resumeConversion {target : String} (into : IsTarget target) :
    ∃ shapes, SpelledLine ('i' :: 'n' :: ' ' :: target.toList) (.expr (.resumeConversion target))
      shapes := by
  obtain ⟨kind, mem, named, scans⟩ := scans_target into
  have inWord : TokenKind.inWord ∈ inside := by decide
  refine ⟨[(.inWord, "in"), (kind, target)], ⟨'i', _, rfl, by decide⟩, List.cons_ne_nil _ _,
    by simp [inWord, mem], fun rest follows => scans_into scans follows.endsWord,
    fun src ts same => ?_⟩
  obtain ⟨u, tail, rfl, first, -, behind⟩ := exists_token same
  obtain ⟨t, rfl, second, text⟩ := exists_onlyToken behind
  refine ⟨.expr (.resumeConversion target), .expr (fun _ => rfl) rfl, ?_⟩
  have named : (t.kind == .word || t.kind.isSymbol) = true := second ▸ named
  simp [parseStatement, first, binaryOp?, parseTarget, named, text, Parsed.behind]

theorem spelledLine_assign {name : String} (word : IsWord name.toList)
    (spelled : Spelled .whole true heads cs (Expr.Means · e)) :
    ∃ shapes, SpelledLine (name.toList ++ ' ' :: '=' :: ' ' :: cs) (.assign name e) shapes := by
  obtain ⟨shapes, h⟩ := spelled
  have kinds : TokenKind.word ∈ inside := by decide
  refine ⟨(.word, name) :: (.equals, "=") :: shapes, ?_, List.cons_ne_nil _ _, ?_,
    fun rest follows => ?_, fun src ts same => ?_⟩
  · obtain ⟨c, ds, eq, visible, -⟩ := visible_of_isWord word
    exact ⟨c, ds ++ _, by rw [eq, List.cons_append], visible⟩
  · simp only [List.forall_mem_cons]
    exact ⟨List.mem_cons_of_mem _ kinds, List.mem_cons_self,
      fun shape mem => List.mem_cons_of_mem _ (h.kinds shape mem)⟩
  · refine Scans.append (word.scansText true (Follows.sign _ (by decide)).endsWord) ?_
    exact Scans.append (.blank rfl) (.afterSign (by decide) (h.scans rest follows))
  · obtain ⟨t, tail, rfl, first, text, behind⟩ := exists_token same
    obtain ⟨u, ts, rfl, equals, -, behind⟩ := exists_token behind
    obtain ⟨e', means, read⟩ := h.readAll src behind
    refine ⟨.assign name e', .assign means.value, ?_⟩
    simp [parseStatement, first, startsWith, equals, read, text, Except.map, Parsed.behind]
    omega

/-- A plain statement of a text has a text, of which its meaning is read. -/
theorem spelled_statement (h : st.FromText) (plain : st.isPlain = true) :
    ∃ text shapes, st.render = .ok text ∧ SpelledLine text.toList st shapes := by
  cases h with
  | expr h =>
    obtain ⟨text, render, visible, spelled, -⟩ := rendered_of_fromText h plain
    obtain ⟨shapes, line⟩ := spelledLine_expr h visible spelled
    exact ⟨text, shapes, render, line⟩
  | @resume op e h =>
    obtain ⟨noMod, plain⟩ : op ≠ .mod ∧ e.isPlain = true := by
      simpa [Statement.isPlain, Expr.isPlain] using plain
    obtain ⟨text, render, -, spelled, -⟩ := rendered_of_fromText h plain
    obtain ⟨shapes, line⟩ := spelledLine_resume noMod spelled
    refine ⟨s!"{op.symbol} {text}", shapes, by rw [Statement.render, Expr.render, render]; rfl, ?_⟩
    simpa [toString] using line
  | @resumeConversion target into =>
    obtain ⟨shapes, line⟩ := spelledLine_resumeConversion into
    exact ⟨s!"in {target}", shapes, rfl, by simpa [toString] using line⟩
  | @assign name e word h =>
    obtain ⟨text, render, -, spelled, -⟩ := rendered_of_fromText h plain
    obtain ⟨shapes, line⟩ := spelledLine_assign word spelled
    refine ⟨s!"{name} = {text}", shapes, by rw [Statement.render, render]; rfl, ?_⟩
    simpa [toString] using line

/-! ## Lines -/

/-- What a parsed line consists of: nothing, a comment, or a statement and perhaps a comment. -/
inductive Line.FromText : Line → Prop
  | empty {raw : String} : FromText ⟨.empty, none, raw⟩
  | comment {text raw : String} : IsComment text.toList → FromText ⟨.comment text, some text, raw⟩
  | statement {st : Statement} {comment : Option String} {raw : String} : st.FromText →
      (∀ text ∈ comment, IsComment text.toList) → FromText ⟨st, comment, raw⟩

theorem isComment_of_last (h : lastComment? (Token.ofText text) = some comment) :
    IsComment comment.toList := by
  obtain ⟨t, last, rfl⟩ := Option.map_eq_some_iff.mp h
  obtain ⟨mem, kind⟩ := List.mem_filter.mp (List.mem_of_getLast? last)
  exact Token.isComment_of_mem mem (beq_iff_eq.mp kind)

theorem line_of_parse {line : Line} (parsed : Line.parse text = .ok (line, [])) :
    line.FromText := by
  unfold Line.parse parseTokens at parsed
  cases tokens : body (Token.ofText text) with
  | nil =>
    obtain rfl := by simpa [tokens] using parsed
    cases last : lastComment? (Token.ofText text) with
    | none => exact .empty
    | some comment => exact .comment (isComment_of_last last)
  | cons t ts =>
    simp only [tokens] at parsed
    obtain ⟨p, statement, made⟩ := map_ok_iff.mp parsed
    obtain ⟨rfl, problems⟩ := Prod.mk.inj made
    have all : AreFrom text (t :: ts) := by
      intro t mem
      rw [← tokens] at mem
      exact (List.mem_filter.mp mem).1
    refine .statement (parseStatement_origin _ t ts all p statement ?_) fun comment mem => ?_
    · exact (List.append_eq_nil_iff.mp problems).2
    · exact isComment_of_last mem

/-- The end of the text and a comment before it leave the tokens of a statement alone. -/
theorem parseTokens_of_spelled (h : SpelledLine cs st shapes) (same : ts.map shape = shapes)
    (kinds : ∀ t ∈ more, t.kind = .comment ∨ t.kind = .finish) (raw : String) :
    ∃ again, parseTokens raw (ts ++ more) = .ok (again, []) ∧ again.statement.Means st := by
  have inner : ∀ t ∈ ts, t.kind ∈ .equals :: inside := by
    intro t mem
    exact h.kinds (shape t) (same ▸ List.mem_map_of_mem mem)
  have apart (kind : TokenKind) (other : kind ∉ .equals :: inside) : ∀ t ∈ ts, t.kind ≠ kind :=
    fun t mem => ne_of_mem_of_not_mem (inner t mem) other
  have statement : body (ts ++ more) = ts := by
    have front : body ts = ts := List.filter_eq_self.mpr fun t mem => by
      simp [apart .comment (by decide) t mem, apart .newline (by decide) t mem,
        apart .finish (by decide) t mem]
    have behind : body more = [] := List.filter_eq_nil_iff.mpr fun t mem => by
      rcases kinds t mem with kind | kind <;> simp [kind]
    calc body (ts ++ more) = body ts ++ body more := List.filter_append _ _
      _ = ts := by rw [front, behind, List.append_nil]
  have noStrays : strayProblems ts = [] := by
    rw [strayProblems, List.filter_eq_nil_iff.mpr fun t mem => ?_]
    · rfl
    · simpa using apart .stray (by decide) t mem
  obtain ⟨t, ts', rfl⟩ : ∃ t ts', ts = t :: ts' := by
    refine List.exists_cons_of_ne_nil ?_
    rintro rfl
    exact h.nonempty same.symm
  obtain ⟨st', means, read⟩ := h.reads
    ⟨if raw.isEmpty then none else some raw.toList, endOf (t :: ts' ++ more)⟩ _ same
  refine ⟨⟨st', lastComment? (t :: ts' ++ more), raw⟩, ?_, means⟩
  simp only [parseTokens, statement, read, Except.map, noStrays, List.nil_append]

/-- A written statement is read again, by itself and in front of a comment. -/
theorem parse_of_spelled (h : SpelledLine cs st shapes)
    (behind : ds = [] ∨ ∃ comment, ds = ' ' :: comment ∧ IsComment comment) :
    ∃ again, Line.parse (String.ofList (cs ++ ds)) = .ok (again, []) ∧
      again.statement.Means st := by
  have follows : Follows ds := by
    rcases behind with rfl | ⟨comment, rfl, ⟨more, rfl | rfl⟩, -⟩
    · exact .nil
    · exact .sign more (by decide)
    · exact .sign ('/' :: more) (by decide)
  obtain ⟨ts, same, tokens⟩ := h.scans ds follows {} rfl
  obtain ⟨more, rest, kinds⟩ : ∃ more, lexFrom (({} : Cursor).advance cs) ds = more ∧
      ∀ t ∈ more, t.kind = .comment ∨ t.kind = .finish := by
    refine ⟨_, rfl, ?_⟩
    rcases behind with rfl | ⟨comment, rfl, isComment⟩
    · rw [lexFrom]
      exact List.forall_mem_singleton.mpr (.inr rfl)
    · obtain ⟨ts, same, tokens⟩ := scans_comment isComment ((({} : Cursor).advance cs).step ' ') rfl
      rw [List.append_nil] at tokens
      rw [lexFrom_of_isGap rfl, tokens, lexFrom]
      obtain ⟨t, rfl, kind, -⟩ := exists_onlyToken same
      simp [kind]
  rw [rest] at tokens
  rw [Line.parse, Token.ofText, String.toList_ofList, tokens]
  exact parseTokens_of_spelled h same kinds _

/-- A comment alone is read as one. -/
theorem parse_comment (h : IsComment comment.toList) :
    Line.parse comment = .ok (⟨.comment comment, some comment, comment⟩, []) := by
  obtain ⟨ts, same, tokens⟩ := scans_comment h {} rfl
  rw [List.append_nil, String.ofList_toList] at *
  obtain ⟨t, rfl, kind, text⟩ := exists_onlyToken same
  rw [Line.parse, Token.ofText, tokens, lexFrom]
  simp [parseTokens, body, lastComment?, kind, text]

/-- The text of a plain line is that of a line with the same meaning. -/
theorem parse_of_render {line : Line} (h : line.FromText) (plain : line.statement.isPlain = true) :
    ∃ rendered again, line.render = .ok rendered ∧ Line.parse rendered = .ok (again, []) ∧
      again.statement.Means line.statement := by
  cases h with
  | empty =>
    refine ⟨"", ⟨.empty, none, ""⟩, rfl, ?_, .empty⟩
    rw [Line.parse, Token.ofText, String.toList_empty, lexFrom]
    rfl
  | @comment text raw isComment => exact ⟨text, _, rfl, parse_comment isComment, .comment⟩
  | @statement st comment raw h comments =>
    obtain ⟨text, shapes, render, spelled⟩ := spelled_statement h plain
    cases comment with
    | none =>
      obtain ⟨again, parsed, means⟩ := parse_of_spelled spelled (.inl rfl)
      rw [List.append_nil, String.ofList_toList] at parsed
      refine ⟨text, again, ?_, parsed, means⟩
      rw [Line.render, render]
      cases h <;> rfl
    | some comment =>
      have isComment := comments comment rfl
      obtain ⟨again, parsed, means⟩ :=
        parse_of_spelled spelled (.inr ⟨_, rfl, isComment_trimEnd isComment⟩)
      have rendered : Line.render ⟨st, some comment, raw⟩ = .ok (trim s!"{text} {comment}") := by
        rw [Line.render, render]
        cases h <;> rfl
      obtain ⟨c, cs, chars, visible⟩ := spelled.visible
      have trimmed : trim s!"{text} {comment}" =
          String.ofList (text.toList ++ ' ' :: trimEnd comment.toList) := by
        rw [trim, chars, ← trimOf_comment visible isComment, ← chars]
        simp [toString]
      exact ⟨_, again, trimmed ▸ rendered, parsed, means⟩

end LineCalc
