import LineCalc.Proofs.Catalog.Codes
import LineCalc.Proofs.Expr.Precedence
import LineCalc.Proofs.Token.Lines

/-!
# Trees of texts without problems

A text that is parsed without problems has a tree whose names, functions and targets are words that
were scanned, whose amounts count something of the catalog, and in which only what a sign, an
operator or a percentage does not stand before is converted.

Result: `parseExpression_origin`, `parseStatement_origin`: this for the parts of the parser.
-/

namespace LineCalc

open LineCalc.Parser

/-! ## Trees -/

/-- The word is a name, and not one of those of the previous result but `_`. -/
def IsName (word : String) : Prop := Token.IsWord word.toList ∧ nameExpr word = .name word

/-- What a value may be converted to: what a word or a symbol stands for. -/
def IsTarget (target : String) : Prop :=
  Token.IsWord target.toList ∨ ∃ c, Token.isGlyph c = true ∧ target = String.ofList [c]

/-- The expression is that of a text; only of a `whole` text it may be a conversion. -/
inductive Expr.FromText : Bool → Expr → Prop
  | amount {whole : Bool} {x : Float} {d : Denomination} {raw : String} :
      d = .plain ∨ d ∈ Denomination.listed → FromText whole (.literal x d raw)
  | percent {whole : Bool} (x : Float) {raw : String} :
      FromText whole (.literal (x / 100) .percent raw)
  | name {whole : Bool} {word : String} : IsName word → FromText whole (.name word)
  | binary {whole : Bool} {left right : Expr} {op : BinaryOp} :
      FromText false left → FromText false right → FromText whole (.binary left op right)
  | signed {whole : Bool} {sign : SignOp} {e : Expr} :
      FromText false e → FromText whole (.signed sign e)
  | percentOf {whole : Bool} (x : Float) {raw : String} {e : Expr} :
      FromText false e → FromText whole (.percentOf (x / 100) raw e)
  | conversion {e : Expr} {target : String} :
      FromText false e → IsTarget target → FromText true (.conversion e target)
  | call {whole : Bool} {function : String} {args : List Expr} :
      Token.IsWord function.toList → (∀ e ∈ args, FromText true e) →
      FromText whole (.call function args)
  | group {whole : Bool} {e : Expr} : FromText true e → FromText whole (.group e)

/-- The statement is that of a text with at least one token. -/
inductive Statement.FromText : Statement → Prop
  | expr {e : Expr} : e.FromText true → FromText (.expr e)
  | resume {op : BinaryOp} {e : Expr} : e.FromText true → FromText (.expr (.resume op e))
  | resumeConversion {target : String} : IsTarget target →
      FromText (.expr (.resumeConversion target))
  | assign {name : String} {e : Expr} : Token.IsWord name.toList → e.FromText true →
      FromText (.assign name e)

/-- What is no conversion is an expression of a whole text as well. -/
theorem Expr.FromText.toWhole {e : Expr} (h : e.FromText false) (whole : Bool) :
    e.FromText whole := by
  cases h with
  | amount h => exact .amount h
  | percent x => exact .percent x
  | name h => exact .name h
  | binary left right => exact .binary left right
  | signed h => exact .signed h
  | percentOf x h => exact .percentOf x h
  | call word args => exact .call word args
  | group h => exact .group h

/-! ## Tokens -/

namespace Token

variable {text : String} {t : Token} {cur : Cursor} {c : Char} {cs : List Char} {n : Nat}
  {kind : TokenKind}

theorem lexeme_of_mem_text (h : t ∈ ofText text) (notFinish : t.kind ≠ .finish) :
    ∃ cur c cs rest, t.text = String.ofList (c :: cs) ∧
      lexeme cur c (cs ++ rest) = (t.kind, cs.length) := by
  obtain ⟨cur, c, rest, more, found, text⟩ := lexeme_of_mem h notFinish
  have bound : more ≤ rest.length := by
    have bound := lexeme_le cur c rest
    rwa [found] at bound
  refine ⟨cur, c, rest.take more, rest.drop more, text, ?_⟩
  rw [List.take_append_drop, List.length_take, Nat.min_eq_left bound, found]

theorem isWord_of_mem (h : t ∈ ofText text) (word : t.kind = .word) : IsWord t.text.toList := by
  obtain ⟨cur, c, cs, rest, text, found⟩ := lexeme_of_mem_text h (by simp [word])
  rw [text, String.toList_ofList]
  exact ⟨cur, c, cs, rest, rfl, word ▸ found⟩

theorem isTarget_of_mem (h : t ∈ ofText text)
    (named : (t.kind == .word || t.kind.isSymbol) = true) : IsTarget t.text := by
  rcases Bool.or_eq_true_iff.mp named with word | symbol
  · exact .inl (isWord_of_mem h (beq_iff_eq.mp word))
  · have notFinish : t.kind ≠ .finish := by
      intro finish
      rw [finish] at symbol
      cases symbol
    obtain ⟨cur, c, cs, rest, text, found⟩ := lexeme_of_mem_text h notFinish
    obtain ⟨glyph, none⟩ := glyph_of_lexeme found symbol
    rw [List.eq_nil_of_length_eq_zero none] at text
    exact .inr ⟨c, glyph, text⟩

theorem isName_previous : IsName previousName :=
  ⟨isWord_of_lexeme (show lexeme {} '_' [] = (.word, 0) by decide +kernel),
    by rw [nameExpr, ite_self]⟩

end Token

namespace Parser

/-! ## Outcomes -/

variable {α β : Type} {src : Source} {t : Token} {ts : List Token} {text : String}

/-- The tokens are some of those of a text. -/
def AreFrom (text : String) (ts : List Token) : Prop := ∀ t ∈ ts, t ∈ Token.ofText text

/-- If a part has been read without problems, this is true of it. -/
def Yields (R : α → Prop) (outcome : Outcome α) : Prop :=
  ∀ p, outcome = .ok p → p.problems = [] → R p.value

variable {R : α → Prop} {R' : β → Prop} {outcome : Outcome α}

theorem AreFrom.drop (h : AreFrom text ts) (n : Nat) : AreFrom text (ts.drop n) :=
  fun t mem => h t (List.mem_of_mem_drop mem)

theorem Yields.ok {p : Parsed α} (h : p.problems = [] → R p.value) : Yields R (.ok p) := by
  intro q eq none
  cases eq
  exact h none

theorem Yields.map {f : Parsed α → Parsed β} (h : Yields R outcome)
    (next : ∀ p, (f p).problems = [] → p.problems = [] ∧ (R p.value → R' (f p).value)) :
    Yields R' (outcome.map f) := by
  intro q eq none
  obtain ⟨p, hp, rfl⟩ := map_ok_iff.mp eq
  obtain ⟨noneBefore, value⟩ := next p none
  exact value (h p hp noneBefore)

theorem Yields.behind {n : Nat} {earlier : List Diagnostic} {f : α → β} (h : Yields R outcome)
    (next : ∀ v, R v → R' (f v)) : Yields R' (outcome.map (·.behind n earlier f)) :=
  h.map fun p none => ⟨(List.append_eq_nil_iff.mp none).2, next p.value⟩

theorem Yields.bind {next : Parsed α → Outcome β} {f : Parsed α → β → β} (h : Yields R outcome)
    (step : ∀ p, R p.value → Yields (fun v => R' (f p v)) (next p)) :
    Yields R' (outcome.bind fun p => (next p).map (·.behind p.used p.problems (f p))) := by
  intro q eq none
  obtain ⟨p, hp, eq⟩ := bind_ok_iff.mp eq
  obtain ⟨p', hp', rfl⟩ := map_ok_iff.mp eq
  obtain ⟨first, second⟩ := List.append_eq_nil_iff.mp none
  exact step p (h p hp first) p' hp' second

theorem Yields.amount {numeral : String} {next : Float → Outcome α}
    (h : ∀ x, Yields R (next x)) : Yields R ((amountOf numeral).bind next) := by
  intro p eq none
  obtain ⟨x, -, eq⟩ := bind_ok_iff.mp eq
  exact h x p eq none

/-! ## Amounts and names -/

theorem mem_listed_of_suffixOf {next : Token} {rest : List Token} {d : Denomination}
    (h : suffixOf next rest = some d) : d ∈ Denomination.listed := by
  unfold suffixOf at h
  split at h
  · split at h
    · cases h
    · exact Denomination.mem_listed_of_ofName? h
  · split at h
    · exact Denomination.mem_listed_of_ofSymbol? h
    · cases h

theorem parseNumber_origin : Yields (Expr.FromText false) (parseNumber src t ts) := by
  rw [parseNumber_eq]
  refine .amount fun x => ?_
  cases ts with
  | nil => exact .ok fun _ => .amount (.inl rfl)
  | cons next rest =>
    simp only
    cases suffix : suffixOf next rest with
    | none => exact .ok fun _ => .amount (.inl rfl)
    | some d => exact .ok fun _ => .amount (.inr (mem_listed_of_suffixOf suffix))

theorem symbolAmount_origin {symbol : Token} {negative : Bool} {used : Nat} :
    Yields (Expr.FromText false) (symbolAmount src symbol negative t used) := by
  rw [symbolAmount_eq]
  refine Yields.behind (Yields.amount fun x => .ok ?_) fun _ h => h
  unfold amountBeside
  cases found : Denomination.ofSymbol? symbol.text with
  | none => exact nofun
  | some d => exact fun _ => .amount (.inr (Denomination.mem_listed_of_ofSymbol? found))

theorem parseSymbol_origin {symbol : Token} :
    Yields (Expr.FromText false) (parseSymbol src symbol ts) := by
  have bare : Yields (Expr.FromText false) (.ok (withoutAmount symbol)) := .ok nofun
  cases ts with
  | nil => exact bare
  | cons first rest =>
    simp only [parseSymbol]
    split
    · exact symbolAmount_origin
    · cases rest with
      | nil => exact bare
      | cons second rest =>
        simp only
        split
        · exact symbolAmount_origin
        · exact bare

theorem nameExpr_origin (h : t ∈ Token.ofText text) (word : t.kind = .word) :
    (nameExpr t.text).FromText false := by
  rw [nameExpr]
  split
  · exact .name Token.isName_previous
  · next other => exact .name ⟨Token.isWord_of_mem h word, if_neg other⟩

theorem parseSimple_origin (h : t ∈ Token.ofText text) :
    Yields (Expr.FromText false) (parseSimple src t ts) := by
  unfold parseSimple
  split
  · exact parseNumber_origin
  split
  · rw [parsePercent_eq]
    exact .amount fun x => .ok fun _ => .percent x
  split
  · exact parseSymbol_origin
  split
  · next word => exact .ok fun _ => nameExpr_origin h (beq_iff_eq.mp word)
  · exact .ok nofun

theorem parseTarget_origin (all : AreFrom text ts) (none : (parseTarget src ts).problems = []) :
    IsTarget (parseTarget src ts).value := by
  cases ts with
  | nil => cases none
  | cons t ts =>
    rw [parseTarget] at none ⊢
    by_cases named : (t.kind == .word || t.kind.isSymbol) = true
    · rw [if_pos named]
      exact Token.isTarget_of_mem (all t List.mem_cons_self) named
    · rw [if_neg named] at none
      cases none

/-! ## Parts with expressions inside -/

theorem withTarget_origin (all : AreFrom text ts) {p : Parsed Expr}
    (none : (withTarget src ts p).problems = []) :
    p.problems = [] ∧ (p.value.FromText false → (withTarget src ts p).value.FromText true) := by
  unfold withTarget at none ⊢
  split at none
  · next converts =>
    obtain ⟨first, second⟩ := List.append_eq_nil_iff.mp none
    rw [if_pos converts]
    exact ⟨first, fun h => .conversion h (parseTarget_origin ((all.drop _).drop 1) second)⟩
  · next plain =>
    rw [if_neg plain]
    exact ⟨none, fun h => h.toWhole true⟩

theorem parseClosing_origin {cause : SyntaxProblem} {value : α} {n : Nat}
    {earlier : List Diagnostic}
    (none : ((parseClosing src cause ts value).behind n earlier id).problems = []) :
    earlier = [] ∧ ((parseClosing src cause ts value).behind n earlier id).value = value := by
  refine ⟨(List.append_eq_nil_iff.mp none).1, ?_⟩
  unfold parseClosing
  split <;> rfl

mutual

theorem parseExpression_origin (src : Source) (ts : List Token) (all : AreFrom text ts) :
    Yields (Expr.FromText true) (parseExpression src ts) := by
  rw [parseExpression_eq]
  exact (parseOperators_origin src 1 ts all).map fun p none => withTarget_origin all none
termination_by (ts.length, 3)

theorem parseOperators_origin (src : Source) (least : Nat) (ts : List Token)
    (all : AreFrom text ts) : Yields (Expr.FromText false) (parseOperators src least ts) := by
  rw [parseOperators_eq]
  refine (parseOperand_origin src ts all).bind fun p operand => ?_
  exact climb_origin src least p.value (ts.drop p.used) operand (all.drop p.used)
termination_by (ts.length, 2)
decreasing_by
  · exact Prod.Lex.right _ (by decide)
  · simp only [List.length_drop, Prod.lex_def]
    omega

theorem climb_origin (src : Source) (least : Nat) (left : Expr) (ts : List Token)
    (operand : left.FromText false) (all : AreFrom text ts) :
    Yields (Expr.FromText false) (climb src least left ts) := by
  match ts with
  | [] =>
    rw [climb]
    exact .ok fun _ => operand
  | t :: rest =>
    cases op? : binaryOp? t.kind with
    | none =>
      rw [climb, op?]
      exact .ok fun _ => operand
    | some op =>
      by_cases loose : op.precedence < least
      · rw [climb, op?]
        simp only [loose, if_true]
        exact .ok fun _ => operand
      · rw [climb_eq op? loose]
        have all : AreFrom text rest := fun t mem => all t (List.mem_cons_of_mem _ mem)
        refine Yields.behind (Yields.bind (parseOperators_origin src op.rightPrecedence rest all)
          fun p right => ?_) fun _ h => h
        exact climb_origin src least (.binary left op p.value) (rest.drop p.used)
          (.binary operand right) (all.drop p.used)
termination_by (ts.length, 1)
decreasing_by
  all_goals simp only [List.length_drop, List.length_cons, Prod.lex_def]; omega

theorem parseOperand_origin (src : Source) (ts : List Token) (all : AreFrom text ts) :
    Yields (Expr.FromText false) (parseOperand src ts) := by
  match ts with
  | [] =>
    rw [parseOperand]
    exact .ok nofun
  | t :: rest =>
    cases sign? : signOp? t.kind with
    | none =>
      rw [parseOperand_eq_primary sign?]
      exact .behind (parsePrimary_origin src t rest all) fun _ h => h
    | some sign =>
      have all : AreFrom text rest := fun t mem => all t (List.mem_cons_of_mem _ mem)
      rw [parseOperand_eq_signed sign?]
      exact .behind (parseOperand_origin src rest all) fun _ h => .signed h
termination_by (ts.length, 1)

theorem parsePrimary_origin (src : Source) (t : Token) (ts : List Token)
    (all : AreFrom text (t :: ts)) : Yields (Expr.FromText false) (parsePrimary src t ts) := by
  have simple : Yields (Expr.FromText false) (parseSimple src t ts) :=
    parseSimple_origin (all t List.mem_cons_self)
  have all' : AreFrom text ts := fun t mem => all t (List.mem_cons_of_mem _ mem)
  rw [parsePrimary_eq]
  split
  · split
    · exact .ok fun _ => .amount (.inl rfl)
    · refine (parseExpression_origin src ts all').map fun p none => ?_
      obtain ⟨first, value⟩ := parseClosing_origin none
      rw [value]
      exact ⟨first, .group⟩
  · match ts with
    | [] => exact simple
    | u :: rest =>
      have behind : AreFrom text rest := fun t mem => all' t (List.mem_cons_of_mem _ mem)
      simp only
      split
      · rw [percentOf_eq]
        exact .amount fun x => .behind (parseOperand_origin src rest behind)
          fun _ h => .percentOf x h
      · split
        · next call =>
          obtain ⟨word, -⟩ := by simpa using call
          exact .behind (parseCall_origin src (all t List.mem_cons_self) word rest behind)
            fun _ h => h
        · exact simple
termination_by (ts.length, 5)

theorem parseCall_origin (src : Source) {t : Token} (mem : t ∈ Token.ofText text)
    (word : t.kind = .word) (ts : List Token) (all : AreFrom text ts) :
    Yields (Expr.FromText false) (parseCall src t.text ts) := by
  have word := Token.isWord_of_mem mem word
  rw [parseCall_eq]
  split
  · exact .ok fun _ => .call word nofun
  · refine (parseArgs_origin src ts all).map fun p none => ?_
    obtain ⟨first, value⟩ := parseClosing_origin none
    rw [value]
    exact ⟨first, .call word⟩
termination_by (ts.length, 5)

theorem parseArgs_origin (src : Source) (ts : List Token) (all : AreFrom text ts) :
    Yields (fun es => ∀ e ∈ es, Expr.FromText true e) (parseArgs src ts) := by
  rw [parseArgs_eq]
  refine (parseExpression_origin src ts all).bind fun p first => ?_
  match left : ts.drop p.used with
  | [] => exact .ok fun _ => List.forall_mem_singleton.mpr first
  | t :: more =>
    have all : AreFrom text (t :: more) := left ▸ all.drop p.used
    simp only [parseMoreArgs]
    split
    · have all : AreFrom text more := fun t mem => all t (List.mem_cons_of_mem _ mem)
      exact .behind (parseArgs_origin src more all)
        fun _ others => List.forall_mem_cons.mpr ⟨first, others⟩
    · exact .ok fun _ => List.forall_mem_singleton.mpr first
termination_by (ts.length, 4)
decreasing_by
  · exact Prod.Lex.right _ (by decide)
  · exact Prod.Lex.left _ _ (length_lt_of_drop left)

end

/-! ## Lines -/

theorem parseStatement_origin (src : Source) (t : Token) (ts : List Token)
    (all : AreFrom text (t :: ts)) :
    Yields Statement.FromText (parseStatement src (t :: ts)) := by
  have behind : AreFrom text ts := fun t mem => all t (List.mem_cons_of_mem _ mem)
  simp only [parseStatement]
  split
  · next assigns =>
    obtain ⟨word, -⟩ := by simpa using assigns
    have word := Token.isWord_of_mem (all t List.mem_cons_self) word
    exact .behind (parseExpression_origin src _ (behind.drop 1)) fun _ h => .assign word h
  · cases binaryOp? t.kind with
    | some op => exact .behind (parseExpression_origin src ts behind) fun _ h => .resume h
    | none =>
      simp only
      split
      · refine .ok fun none => .resumeConversion (parseTarget_origin behind ?_)
        exact (List.append_eq_nil_iff.mp none).2
      · exact .behind (parseExpression_origin src (t :: ts) all) fun _ h => .expr h

end Parser

end LineCalc
