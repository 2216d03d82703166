import LineCalc.Proofs.Expr.Parser
import LineCalc.Proofs.Result

/-!
# What the parser uses and notes

Where the numerals among the tokens have amounts, every part of a line is read. It uses no more
tokens than there are, an operand or an expression uses one if there is one, and what goes wrong is
a problem of form at a token.

Results:
1. `parseOperand_isRead`, `parseExpression_isRead`: this for the parts with expressions inside.
2. `parseStatement_isRead`: this for a line.
-/

namespace LineCalc.Parser

variable {α β γ : Type} {tokens ts : List Token} {src : Source} {t : Token} {least most n : Nat}

/-! ## Parts -/

/-- The numerals have amounts. -/
def AreWorth (ts : List Token) : Prop :=
  ∀ t ∈ ts, t.kind = .number ∨ t.kind = .percent → ∃ x, amountOf t.text = .ok x

/-- A problem of form at a token. -/
def IsNoted (tokens : List Token) (d : Diagnostic) : Prop :=
  d.problem.kind = .parse ∧ ∃ t ∈ tokens, d.pos = some t.pos

theorem IsNoted.ofSyntax {cause : SyntaxProblem} (mem : t ∈ tokens) :
    IsNoted tokens (.ofSyntax cause t.pos) :=
  ⟨rfl, t, mem, rfl⟩

/-- Some of the tokens, one of which is where the text ends. Their numerals have amounts. -/
structure IsPart (tokens : List Token) (src : Source) (ts : List Token) : Prop where
  mem : ∀ t ∈ ts, t ∈ tokens
  worth : AreWorth ts
  finish : ∃ t ∈ tokens, t.pos = src.endPos

theorem IsPart.tail (h : IsPart tokens src (t :: ts)) : IsPart tokens src ts :=
  ⟨fun u mem => h.mem u (.tail t mem), fun u mem => h.worth u (.tail t mem), h.finish⟩

theorem IsPart.drop (h : IsPart tokens src ts) (n : Nat) : IsPart tokens src (ts.drop n) :=
  ⟨fun u mem => h.mem u (List.mem_of_mem_drop mem),
    fun u mem => h.worth u (List.mem_of_mem_drop mem), h.finish⟩

theorem IsPart.atEnd (h : IsPart tokens src ts) {cause : SyntaxProblem} :
    IsNoted tokens (.ofSyntax cause src.endPos) := by
  obtain ⟨t, mem, pos⟩ := h.finish
  exact pos ▸ .ofSyntax mem

theorem IsPart.atHead (h : IsPart tokens src (t :: ts)) {cause : SyntaxProblem} :
    IsNoted tokens (.ofSyntax cause t.pos) :=
  .ofSyntax (h.mem t List.mem_cons_self)

theorem IsPart.atFirst (h : IsPart tokens src ts) {cause : SyntaxProblem} :
    IsNoted tokens (.ofSyntax cause (posOf src ts)) := by
  cases ts with
  | nil => exact h.atEnd
  | cons t ts => exact h.atHead

/-! ## Parts that are read -/

/-- A part uses at least `least` and at most `most` tokens, and its problems are at tokens. -/
structure Within (tokens : List Token) (least most : Nat) (p : Parsed α) : Prop where
  least : least ≤ p.used
  most : p.used ≤ most
  noted : ∀ d ∈ p.problems, IsNoted tokens d

/-- There is no fault in a part, which uses at least `least` and at most `most` tokens. -/
def IsRead (tokens : List Token) (least most : Nat) (o : Outcome α) : Prop :=
  ∃ p, o = .ok p ∧ Within tokens least most p

variable {p : Parsed α} {o : Outcome α} {least' : Nat}

theorem Within.noting {a : α} {d : Diagnostic} (h : IsNoted tokens d) :
    Within tokens 0 most ⟨a, 0, [d]⟩ :=
  ⟨Nat.zero_le _, Nat.zero_le _, List.forall_mem_singleton.mpr h⟩

theorem Within.none {a : α} : Within tokens 0 most ⟨a, 0, []⟩ :=
  ⟨Nat.zero_le _, Nat.zero_le _, nofun⟩

theorem Within.one {a : α} : Within tokens 0 (most + 1) ⟨a, 1, []⟩ :=
  ⟨Nat.zero_le _, Nat.le_add_left 1 most, nofun⟩

theorem Within.behind {q : Parsed β} (first : Within tokens least most p)
    (second : Within tokens 0 (most - p.used) q) (f : β → γ) :
    Within tokens least most (q.behind p.used p.problems f) := by
  have used := first.most
  refine ⟨Nat.le_add_right_of_le first.least, ?_, ?_⟩
  · have more := second.most
    show p.used + q.used ≤ most
    omega
  · exact fun d mem => (List.mem_append.mp mem).elim (first.noted d) (second.noted d)

theorem Within.next (h : Within tokens least most p) (f : α → β) :
    Within tokens (least + 1) (most + 1) (p.behind 1 [] f) := by
  refine ⟨?_, ?_, h.noted⟩
  · have used := h.least
    show least + 1 ≤ 1 + p.used
    omega
  · have used := h.most
    show 1 + p.used ≤ most + 1
    omega

theorem Within.fewer (h : Within tokens least most p) (fewer : least' ≤ least) :
    Within tokens least' most p :=
  ⟨Nat.le_trans fewer h.least, h.most, h.noted⟩

theorem IsRead.within (h : IsRead tokens least most o) (eq : o = .ok p) :
    Within tokens least most p := by
  obtain ⟨p, rfl, within⟩ := h
  cases eq
  exact within

theorem IsRead.ok (h : Within tokens least most p) : IsRead tokens least most (.ok p) :=
  ⟨p, rfl, h⟩

theorem IsRead.fewer (h : IsRead tokens least most o) (fewer : least' ≤ least) :
    IsRead tokens least' most o := by
  obtain ⟨p, eq, within⟩ := h
  exact ⟨p, eq, within.fewer fewer⟩

theorem IsRead.map {f : Parsed α → Parsed β} {most' : Nat} (h : IsRead tokens least most o)
    (next : ∀ p, Within tokens least most p → Within tokens least' most' (f p)) :
    IsRead tokens least' most' (o.map f) := by
  obtain ⟨p, rfl, within⟩ := h
  exact .ok (next p within)

theorem IsRead.next (h : IsRead tokens least most o) (f : α → β) :
    IsRead tokens (least + 1) (most + 1) (o.map (·.behind 1 [] f)) :=
  h.map fun _ within => within.next f

theorem IsRead.bind {next : Parsed α → Outcome β} {f : Parsed α → β → β}
    (h : IsRead tokens least most o)
    (step : ∀ p, Within tokens least most p → IsRead tokens 0 (most - p.used) (next p)) :
    IsRead tokens least most
      (o.bind fun p => (next p).map (·.behind p.used p.problems (f p))) := by
  obtain ⟨p, rfl, first⟩ := h
  obtain ⟨q, eq, second⟩ := step p first
  show IsRead _ _ _ ((next p).map _)
  rw [eq]
  exact .ok (first.behind second (f p))

theorem IsRead.amount {numeral : String} {next : Float → Outcome α}
    (worth : ∃ x, amountOf numeral = .ok x) (h : ∀ x, IsRead tokens least most (next x)) :
    IsRead tokens least most ((amountOf numeral).bind next) := by
  obtain ⟨x, eq⟩ := worth
  rw [eq]
  exact h x

/-! ## Parts without expressions inside -/

theorem parseNumber_isRead (h : IsPart tokens src (t :: ts)) (number : t.kind = .number) :
    IsRead tokens 0 ts.length (parseNumber src t ts) := by
  rw [parseNumber_eq]
  refine .amount (h.worth t List.mem_cons_self (.inl number)) fun x => ?_
  cases ts with
  | nil => exact .ok .none
  | cons next rest =>
    simp only
    cases suffixOf next rest with
    | none => exact .ok .none
    | some d => exact .ok .one

theorem amountBeside_within {symbol : Token} {negative : Bool} {x : Float}
    (mem : symbol ∈ tokens) : Within tokens 0 most (amountBeside src symbol negative t x) := by
  unfold amountBeside
  cases Denomination.ofSymbol? symbol.text with
  | some d => exact .none
  | none => exact .noting (.ofSyntax mem)

theorem symbolAmount_isRead {symbol : Token} {negative : Bool} (mem : symbol ∈ tokens)
    (worth : ∃ x, amountOf t.text = .ok x) (used : n ≤ most) :
    IsRead tokens 0 most (symbolAmount src symbol negative t n) := by
  rw [symbolAmount_eq]
  have beside : IsRead tokens 0 0 ((amountOf t.text).bind fun x =>
      .ok (amountBeside src symbol negative t x)) :=
    .amount worth fun x => .ok (amountBeside_within mem)
  refine beside.map fun p within => ?_
  refine ⟨Nat.zero_le _, ?_, within.noted⟩
  have none := within.most
  show n + p.used ≤ most
  omega

theorem parseSymbol_isRead {symbol : Token} (h : IsPart tokens src (symbol :: ts)) :
    IsRead tokens 0 ts.length (parseSymbol src symbol ts) := by
  have mem := h.mem symbol List.mem_cons_self
  have bare : ∀ {most}, IsRead tokens 0 most (.ok (withoutAmount symbol)) :=
    .ok (.noting (.ofSyntax mem))
  have worth : ∀ u ∈ ts, (u.kind == .number) = true → ∃ x, amountOf u.text = .ok x :=
    fun u among number => h.worth u (.tail symbol among) (.inl (beq_iff_eq.mp number))
  cases ts with
  | nil => exact bare
  | cons first rest =>
    simp only [parseSymbol]
    split
    · next number =>
      exact symbolAmount_isRead mem (worth first List.mem_cons_self number) (by simp)
    · cases rest with
      | nil => exact bare
      | cons second rest =>
        simp only
        split
        · next signed =>
          have number := (Bool.and_eq_true_iff.mp signed).2
          exact symbolAmount_isRead mem (worth second (by simp) number) (by simp)
        · exact bare

theorem parsePercent_isRead (worth : ∃ x, amountOf t.text = .ok x) :
    IsRead tokens 0 most (parsePercent t) := by
  rw [parsePercent_eq]
  exact .amount worth fun x => .ok .none

theorem parseSimple_isRead (h : IsPart tokens src (t :: ts)) :
    IsRead tokens 0 ts.length (parseSimple src t ts) := by
  unfold parseSimple
  split
  · next number => exact parseNumber_isRead h (beq_iff_eq.mp number)
  split
  · next percent =>
    exact parsePercent_isRead (h.worth t List.mem_cons_self (.inr (beq_iff_eq.mp percent)))
  split
  · exact parseSymbol_isRead h
  split
  · exact .ok .none
  · exact .ok (.noting h.atHead)

theorem parseTarget_within (h : IsPart tokens src ts) :
    Within tokens 0 ts.length (parseTarget src ts) := by
  cases ts with
  | nil => exact .noting h.atEnd
  | cons t ts =>
    simp only [parseTarget]
    split
    · exact .one
    · exact .noting h.atHead

theorem parseClosing_within (h : IsPart tokens src ts) {cause : SyntaxProblem} {value : α} :
    Within tokens 0 ts.length (parseClosing src cause ts value) := by
  unfold parseClosing
  split
  · next closes =>
    cases ts with
    | nil => cases closes
    | cons t ts => exact .one
  · exact .noting h.atFirst

/-! ## Parts with expressions inside -/

theorem withTarget_within {p : Parsed Expr} (h : IsPart tokens src ts)
    (within : Within tokens least ts.length p) :
    Within tokens least ts.length (withTarget src ts p) := by
  unfold withTarget
  split
  · next converts =>
    cases left : ts.drop p.used with
    | nil => rw [left] at converts; cases converts
    | cons t rest =>
      have shorter := congrArg List.length left
      rw [List.length_drop, List.length_cons] at shorter
      have target := parseTarget_within (left ▸ h.drop p.used).tail
      refine ⟨?_, ?_, ?_⟩
      · have used := within.least
        show least ≤ p.used + 1 + _
        omega
      · have used := target.most
        show p.used + 1 + (parseTarget src rest).used ≤ ts.length
        omega
      · exact fun d mem => (List.mem_append.mp mem).elim (within.noted d) (target.noted d)
  · exact within

/-- What closes a part is read after it. -/
theorem Within.closed {p : Parsed α} (h : IsPart tokens src ts)
    (within : Within tokens least ts.length p) {cause : SyntaxProblem} {value : β} :
    Within tokens 0 ts.length
      ((parseClosing src cause (ts.drop p.used) value).behind p.used p.problems id) := by
  have closing : Within tokens 0 (ts.drop p.used).length
      (parseClosing src cause (ts.drop p.used) value) := parseClosing_within (h.drop p.used)
  rw [List.length_drop] at closing
  exact (within.behind closing id).fewer (Nat.zero_le _)

mutual

theorem parseExpression_isRead (src : Source) (ts : List Token) (h : IsPart tokens src ts) :
    IsRead tokens (min ts.length 1) ts.length (parseExpression src ts) := by
  rw [parseExpression_eq]
  exact (parseOperators_isRead src 1 ts h).map fun p => withTarget_within h
termination_by (ts.length, 3)

theorem parseOperators_isRead (src : Source) (place : Nat) (ts : List Token)
    (h : IsPart tokens src ts) :
    IsRead tokens (min ts.length 1) ts.length (parseOperators src place ts) := by
  rw [parseOperators_eq]
  refine (parseOperand_isRead src ts h).bind fun p _ => ?_
  rw [← List.length_drop]
  exact climb_isRead src place p.value (ts.drop p.used) (h.drop p.used)
termination_by (ts.length, 2)
decreasing_by
  · exact Prod.Lex.right _ (by decide)
  · simp only [List.length_drop, Prod.lex_def]
    omega

theorem climb_isRead (src : Source) (place : Nat) (left : Expr) (ts : List Token)
    (h : IsPart tokens src ts) : IsRead tokens 0 ts.length (climb src place left ts) := by
  match ts with
  | [] =>
    rw [climb]
    exact .ok .none
  | t :: rest =>
    cases op? : binaryOp? t.kind with
    | none =>
      rw [climb, op?]
      exact .ok .none
    | some op =>
      by_cases loose : op.precedence < place
      · rw [climb, op?]
        simp only [loose, if_true]
        exact .ok .none
      · rw [climb_eq op? loose]
        have right := parseOperators_isRead src op.rightPrecedence rest h.tail
        refine IsRead.fewer (.next (right.bind fun p _ => ?_) id) (Nat.zero_le _)
        rw [← List.length_drop]
        exact climb_isRead src place (.binary left op p.value) (rest.drop p.used)
          (h.tail.drop p.used)
termination_by (ts.length, 1)
decreasing_by
  all_goals simp only [List.length_drop, List.length_cons, Prod.lex_def]; omega

theorem parseOperand_isRead (src : Source) (ts : List Token) (h : IsPart tokens src ts) :
    IsRead tokens (min ts.length 1) ts.length (parseOperand src ts) := by
  match ts with
  | [] =>
    rw [parseOperand]
    exact .ok (.noting h.atEnd)
  | t :: rest =>
    have one : min (t :: rest).length 1 ≤ 0 + 1 := Nat.min_le_right _ _
    cases sign? : signOp? t.kind with
    | none =>
      rw [parseOperand_eq_primary sign?]
      exact ((parsePrimary_isRead src t rest h).next id).fewer one
    | some sign =>
      rw [parseOperand_eq_signed sign?]
      have operand := (parseOperand_isRead src rest h.tail).fewer (Nat.zero_le _)
      exact (operand.next (Expr.signed sign)).fewer one
termination_by (ts.length, 1)

theorem parsePrimary_isRead (src : Source) (t : Token) (ts : List Token)
    (h : IsPart tokens src (t :: ts)) : IsRead tokens 0 ts.length (parsePrimary src t ts) := by
  have simple := parseSimple_isRead h
  rw [parsePrimary_eq]
  split
  · split
    · next closes =>
      cases ts with
      | nil => cases closes
      | cons u rest => exact .ok .one
    · exact (parseExpression_isRead src ts h.tail).map fun p within => within.closed h.tail
  · match ts with
    | [] => exact simple
    | u :: rest =>
      have behind := h.tail.tail
      simp only
      split
      · next percentage =>
        have percent := beq_iff_eq.mp (Bool.and_eq_true_iff.mp percentage).1
        rw [percentOf_eq]
        refine .amount (h.worth t List.mem_cons_self (.inr percent)) fun x => ?_
        exact ((parseOperand_isRead src rest behind).next _).fewer (Nat.zero_le _)
      · split
        · exact ((parseCall_isRead src t.text rest behind).next id).fewer (Nat.zero_le _)
        · exact simple
termination_by (ts.length, 5)

theorem parseCall_isRead (src : Source) (function : String) (ts : List Token)
    (h : IsPart tokens src ts) : IsRead tokens 0 ts.length (parseCall src function ts) := by
  rw [parseCall_eq]
  split
  · next closes =>
    cases ts with
    | nil => cases closes
    | cons t rest => exact .ok .one
  · exact (parseArgs_isRead src ts h).map fun p within => within.closed h
termination_by (ts.length, 5)

theorem parseArgs_isRead (src : Source) (ts : List Token) (h : IsPart tokens src ts) :
    IsRead tokens 0 ts.length (parseArgs src ts) := by
  rw [parseArgs_eq]
  refine ((parseExpression_isRead src ts h).bind fun p _ => ?_).fewer
    (Nat.zero_le _)
  rw [← List.length_drop]
  match left : ts.drop p.used with
  | [] => exact .ok .none
  | t :: more =>
    simp only [parseMoreArgs]
    split
    · exact ((parseArgs_isRead src more (left ▸ h.drop p.used).tail).next id).fewer
        (Nat.zero_le _)
    · exact .ok .none
termination_by (ts.length, 4)
decreasing_by
  · exact Prod.Lex.right _ (by decide)
  · exact Prod.Lex.left _ _ (length_lt_of_drop left)

end

/-! ## Lines -/

theorem parseStatement_isRead (h : IsPart tokens src (t :: ts)) :
    IsRead tokens 0 (t :: ts).length (parseStatement src (t :: ts)) := by
  simp only [parseStatement]
  split
  · next assigns =>
    cases ts with
    | nil => simp [startsWith] at assigns
    | cons u rest =>
      refine (parseExpression_isRead src rest h.tail.tail).map fun p within => ?_
      refine ⟨Nat.zero_le _, ?_, within.noted⟩
      have used := within.most
      show 2 + p.used ≤ rest.length + 2
      omega
  · cases binaryOp? t.kind with
    | some op =>
      exact ((parseExpression_isRead src ts h.tail).next _).fewer (Nat.zero_le _)
    | none =>
      simp only
      split
      · exact .ok (((parseTarget_within h.tail).next _).fewer (Nat.zero_le _))
      · refine (parseExpression_isRead src (t :: ts) h).map fun p within => ?_
        refine ⟨Nat.zero_le _, ?_, within.noted⟩
        have used := within.most
        show 0 + p.used ≤ _
        omega

end LineCalc.Parser
