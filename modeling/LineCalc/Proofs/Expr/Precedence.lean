import Mathlib
import LineCalc.Proofs.Expr.Grammar
import LineCalc.Proofs.Expr.Parser
import LineCalc.Proofs.Result

/-!
# Precedence and order of operators

The parser obeys the grammar: its tree has the operands and operators of the tokens in their order,
and the operators nest by their precedence. Of `climb` this is an invariant of its loop: what has
been read so far may stand to the left of the operator that is next.

Results:
1. `parseExpression_grammar`, `parseStatement_grammar`: this for the parts of the parser.
2. `parse_by_grammar`: this for the tree of every text.
-/

namespace LineCalc

namespace Parser

open Grammar

variable {α β : Type} {src : Source} {t : Token} {ts : List Token}

/-! ## Outcomes -/

/-- If a part of `ts` has been read, its value and what is left behind it are related. -/
def Gives (ts : List Token) (R : α → List Token → Prop) (outcome : Outcome α) : Prop :=
  ∀ p, outcome = .ok p → R p.value (ts.drop p.used)

variable {R : α → List Token → Prop} {R' : β → List Token → Prop} {outcome : Outcome α}

theorem Gives.ok {p : Parsed α} (h : R p.value (ts.drop p.used)) : Gives ts R (.ok p) := by
  intro q eq
  cases eq
  exact h

theorem Gives.map {ts' : List Token} {f : Parsed α → Parsed β} (h : Gives ts R outcome)
    (next : ∀ p, R p.value (ts.drop p.used) → R' (f p).value (ts'.drop (f p).used)) :
    Gives ts' R' (outcome.map f) := by
  intro q eq
  obtain ⟨p, hp, rfl⟩ := map_ok_iff.mp eq
  exact next p (h p hp)

theorem Gives.behind {n : Nat} {rest : List Token} {earlier : List Diagnostic} {f : α → β}
    (left : ts.drop n = rest) (h : Gives rest R outcome)
    (next : ∀ v rest, R v rest → R' (f v) rest) :
    Gives ts R' (outcome.map (·.behind n earlier f)) := by
  refine h.map fun p hp => ?_
  show R' (f p.value) (ts.drop (n + p.used))
  rw [← List.drop_drop, left]
  exact next _ _ hp

theorem Gives.bind {next : Parsed α → Outcome β} {earlier : Parsed α → List Diagnostic}
    {f : Parsed α → β → β} (h : Gives ts R outcome)
    (step : ∀ p, R p.value (ts.drop p.used) →
      Gives (ts.drop p.used) (fun v rest => R' (f p v) rest) (next p)) :
    Gives ts R' (outcome.bind fun p => (next p).map (·.behind p.used (earlier p) (f p))) := by
  intro q eq
  obtain ⟨p, hp, eq⟩ := bind_ok_iff.mp eq
  exact Gives.behind rfl (step p (h p hp)) (fun _ _ h => h) q eq

theorem Gives.amount {numeral : String} {next : Float → Outcome α}
    (h : ∀ x, amountOf numeral = .ok x → Gives ts R (next x)) :
    Gives ts R ((amountOf numeral).bind next) := by
  intro p eq
  obtain ⟨x, hx, eq⟩ := bind_ok_iff.mp eq
  exact h x hx p eq

/-! ## Amounts and names -/

theorem parseNumber_grammar (kind : t.kind = .number) :
    Gives ts (Leaf (t :: ts)) (parseNumber src t ts) := by
  rw [parseNumber_eq]
  refine Gives.amount fun x amount => ?_
  cases ts with
  | nil => exact .ok (.number kind amount nofun)
  | cons next rest =>
    simp only
    cases suffix : suffixOf next rest with
    | none =>
      refine .ok (.number kind amount fun u rest eq => ?_)
      cases eq
      exact suffix
    | some d => exact .ok (.quantity kind amount suffix)

theorem parsePercent_grammar (kind : t.kind = .percent) (alone : startsWith .ofWord ts = false) :
    Gives ts (Leaf (t :: ts)) (parsePercent t) := by
  intro p eq
  obtain ⟨x, amount, rfl⟩ := map_ok_iff.mp eq
  exact .percent kind alone amount

/-- What the number `t` is worth as the amount of a symbol. -/
theorem amountBeside_value (src : Source) (symbol : Token) (negative : Bool) (t : Token)
    (x : Float) :
    ∃ raw, (amountBeside src symbol negative t x).value =
        .literal (if negative then -x else x) (symbolDenomination symbol) raw ∧
      (amountBeside src symbol negative t x).used = 0 := by
  unfold amountBeside symbolDenomination
  cases Denomination.ofSymbol? symbol.text with
  | none => exact ⟨_, rfl, rfl⟩
  | some d => exact ⟨_, rfl, rfl⟩

theorem symbolAmount_gives {symbol : Token} {negative : Bool} {used : Nat}
    {R : Expr → List Token → Prop}
    (h : ∀ x raw, amountOf t.text = .ok x →
      R (.literal (if negative then -x else x) (symbolDenomination symbol) raw) (ts.drop used)) :
    Gives ts R (symbolAmount src symbol negative t used) := by
  rw [symbolAmount_eq]
  refine Gives.behind rfl (Gives.amount fun x amount => .ok ?_) (R := R) fun _ _ h => h
  obtain ⟨raw, value, unused⟩ := amountBeside_value src symbol negative t x
  rw [value, unused]
  exact h x raw amount

theorem parseSymbol_grammar {symbol : Token} (kind : symbol.kind.isSymbol = true) :
    Gives ts (Leaf (symbol :: ts)) (parseSymbol src symbol ts) := by
  have bare : startsAmount ts = false →
      Gives ts (Leaf (symbol :: ts)) (.ok (withoutAmount symbol)) :=
    fun none => .ok (.bareSymbol kind none)
  cases ts with
  | nil => exact bare rfl
  | cons first rest =>
    simp only [parseSymbol]
    split
    · next number =>
      exact symbolAmount_gives fun x raw amount => .symbol kind (beq_iff_eq.mp number) amount
    · next number =>
      cases rest with
      | nil => exact bare (by simp [startsAmount, startsWith, number])
      | cons second rest =>
        simp only
        split
        · next signed =>
          obtain ⟨minus, number⟩ := by simpa using signed
          exact symbolAmount_gives fun x raw amount => .negative kind minus number amount
        · next unsigned => exact bare (by simpa [startsAmount, startsWith, number] using unsigned)

/-- The tokens `t` and `ts` make no percentage of something and no call. -/
theorem parseSimple_grammar (noSign : signOp? t.kind = none) (noGroup : t.kind ≠ .leftParen)
    (noBase : t.kind = .percent → startsWith .ofWord ts = false)
    (noCall : t.kind = .word → startsWith .leftParen ts = false) :
    Gives ts (Leaf (t :: ts)) (parseSimple src t ts) := by
  unfold parseSimple
  split
  · next number => exact parseNumber_grammar (beq_iff_eq.mp number)
  split
  · next percent =>
    have percent := beq_iff_eq.mp percent
    exact parsePercent_grammar percent (noBase percent)
  split
  · next symbol => exact parseSymbol_grammar symbol
  split
  · next word =>
    have word := beq_iff_eq.mp word
    exact .ok (.name word (noCall word))
  · next number percent symbol word =>
    exact .ok (.unexpected (by simp_all [opensOperand]))

theorem parseTarget_grammar : Target ts (parseTarget src ts).value
    (ts.drop (parseTarget src ts).used) := by
  cases ts with
  | nil => exact .missing nofun
  | cons t ts =>
    rw [parseTarget]
    split
    · next named => exact .named named
    · next unnamed =>
      refine .missing fun u mem => ?_
      cases mem
      exact Bool.eq_false_iff.mpr unnamed

/-! ## Operators -/

/-- The operator that follows, if any, binds less close than `least`. -/
def Ends (least : Nat) (ts : List Token) : Prop :=
  ∀ next, nextOp? ts = some next → next.precedence < least

/-- An operator may stand to the left of the one that follows. -/
def GoesBefore (op : BinaryOp) (ts : List Token) : Prop :=
  ∀ next, nextOp? ts = some next → (Place.leftOf next).Admits op

/-- What is read to the right of an operator may stand there. -/
theorem admits_rightOf {op inner : BinaryOp} (close : op.rightPrecedence ≤ inner.precedence) :
    (Place.rightOf op).Admits inner := by
  revert close
  cases op <;> cases inner <;>
    simp [Place.Admits, BinaryOp.rightPrecedence, BinaryOp.precedence]

/-- After the right operand of an operator, it is the turn of the operator. -/
theorem Ends.goesBefore {op : BinaryOp} (h : Ends op.rightPrecedence ts) : GoesBefore op ts := by
  intro next follows
  have loose := h next follows
  revert loose
  cases op <;> cases next <;>
    simp [Place.Admits, BinaryOp.rightPrecedence, BinaryOp.precedence]

theorem nextOp?_of_ends (h : Ends 1 ts) : nextOp? ts = none := by
  cases next : nextOp? ts with
  | none => rfl
  | some op =>
    have none := h op next
    revert none
    cases op <;> simp [BinaryOp.precedence]

/-- A part of a chain has all the operators that bind at least as close as `least`, and no
others. -/
structure Complete (least : Nat) (e : Expr) (rest : List Token) : Prop where
  ends : Ends least rest
  nested : ∀ place : Place, (∀ op, least ≤ op.precedence → place.Admits op) → e.Nested place

/-- A part of a chain at the front. -/
structure ChainFrom (least : Nat) (ts : List Token) (e : Expr) (rest : List Token) : Prop
    extends Complete least e rest where
  spelled : ∃ more, Operand ts e.first more ∧ Links more e.links rest

/-- What `climb` makes of `left`, with the operators and operands at the front added to it. -/
structure Climbs (least : Nat) (left : Expr) (ts : List Token) (e : Expr) (rest : List Token) : Prop
    extends Complete least e rest where
  spelled : ∃ links, Links ts links rest ∧ e.first = left.first ∧ e.links = left.links ++ links

/-- The invariant of `climb`: what has been read so far may stand wherever all those operators may
that are taken up and may go before the operator that follows. -/
def Fits (least : Nat) (left : Expr) (ts : List Token) : Prop :=
  ∀ place : Place, (∀ op, least ≤ op.precedence → GoesBefore op ts → place.Admits op) →
    left.Nested place

variable {least : Nat} {left right e : Expr} {op : BinaryOp} {more rest : List Token}

/-- What stands behind a sign is not taken apart into operands. -/
theorem links_of_nested_operand (h : e.Nested .operand) : e.links = [] := by
  cases links : e.links with
  | nil => rfl
  | cons link more => exact (h.admits link (by simp [links])).elim

/-- The operator that follows has what has been read so far on its left. -/
theorem Fits.step (op? : binaryOp? t.kind = some op) (close : least ≤ op.precedence)
    (fits : Fits least left (t :: ts)) (h : ChainFrom op.rightPrecedence ts right rest) :
    Fits least (.binary left op right) rest := by
  intro place admits
  refine .binary (admits op close h.ends.goesBefore) (fits _ fun inner _ before => ?_)
    (h.nested _ fun inner => admits_rightOf)
  exact before op op?

theorem Climbs.stop (ends : Ends least ts) (fits : Fits least left ts) :
    Climbs least left ts left ts where
  spelled := ⟨[], .nil, rfl, (List.append_nil _).symm⟩
  ends := ends
  nested place admits := fits place fun op close _ => admits op close

theorem Climbs.step (op? : binaryOp? t.kind = some op)
    (first : ChainFrom op.rightPrecedence ts right more)
    (h : Climbs least (.binary left op right) more e rest) :
    Climbs least left (t :: ts) e rest := by
  obtain ⟨next, operand, links⟩ := first.spelled
  obtain ⟨others, otherLinks, start, all⟩ := h.spelled
  refine ⟨h.toComplete, (op, right.first) :: right.links ++ others, ?_, start, ?_⟩
  · exact .cons op? operand (links.append otherLinks)
  · rw [all, Expr.links, List.append_assoc]

/-- An operand with what `climb` adds to it. -/
theorem ChainFrom.intro (operand : Operand ts left more) (nested : ∀ place, left.Nested place)
    (h : Climbs least left more e rest) : ChainFrom least ts e rest := by
  have lone := links_of_nested_operand (nested .operand)
  obtain ⟨links, spelled, start, all⟩ := h.spelled
  refine ⟨h.toComplete, more, ?_, ?_⟩
  · rwa [start, Expr.first_eq_self lone]
  · rwa [all, lone, List.nil_append]

/-! ## Parts with expressions inside -/

/-- An expression that may stand wherever `in` may follow it. -/
def IsExpression (ts : List Token) (e : Expr) (rest : List Token) : Prop :=
  Whole ts e rest ∧ ∀ place : Place, place.IsWhole → e.Nested place

/-- An expression that may stand anywhere. -/
def IsOperand (ts : List Token) (e : Expr) (rest : List Token) : Prop :=
  Operand ts e rest ∧ ∀ place, e.Nested place

/-- Arguments that are nested by the rules. -/
def AreArgs (ts : List Token) (es : List Expr) (rest : List Token) : Prop :=
  Args ts es rest ∧ ∀ e ∈ es, e.Nested .whole

theorem admits_of_isWhole {place : Place} (h : place.IsWhole) (op : BinaryOp) :
    place.Admits op := by
  rcases h with rfl | rfl <;> trivial

theorem ChainFrom.chain (h : ChainFrom 1 ts e rest) : Chain ts e rest := by
  obtain ⟨more, operand, links⟩ := h.spelled
  exact .intro operand links (nextOp?_of_ends h.ends)

theorem withTarget_grammar {p : Parsed Expr} (h : ChainFrom 1 ts p.value (ts.drop p.used)) :
    IsExpression ts (withTarget src ts p).value (ts.drop (withTarget src ts p).used) := by
  unfold withTarget
  split
  · next converts =>
    obtain ⟨t, more, left, kind⟩ : ∃ t more, ts.drop p.used = t :: more ∧ t.kind = .inWord := by
      cases left : ts.drop p.used with
      | nil => simp [left, startsWith] at converts
      | cons t more => exact ⟨t, more, rfl, by simpa [left, startsWith] using converts⟩
    rw [left] at h ⊢
    refine ⟨.conversion h.chain kind ?_, fun place whole => .conversion whole ?_⟩
    · show Target more _ (ts.drop (p.used + 1 + _))
      rw [← List.drop_drop, ← List.drop_drop, left]
      exact parseTarget_grammar
    · exact h.nested _ fun op _ => trivial
  · next plain =>
    refine ⟨.chain h.chain (Bool.eq_false_iff.mpr plain), fun place whole => ?_⟩
    exact h.nested place fun op _ => admits_of_isWhole whole op

theorem parseClosing_grammar {cause : SyntaxProblem} {value : α} :
    (parseClosing src cause ts value).value = value ∧
      ts.drop (parseClosing src cause ts value).used = pastClosing ts := by
  unfold parseClosing pastClosing
  split
  · exact ⟨rfl, rfl⟩
  · exact ⟨rfl, rfl⟩

theorem percentOf_grammar {u : Token} {base : Outcome Expr} (percent : t.kind = .percent)
    (ofWord : u.kind = .ofWord) (h : Gives ts (IsOperand ts) base) :
    Gives (u :: ts) (IsOperand (t :: u :: ts)) (percentOf t base) := by
  rw [percentOf_eq]
  refine Gives.amount fun x amount => .behind rfl h fun e rest base => ?_
  have fraction : fractionOf t.text = .ok (x / 100) := by
    rw [fractionOf, amount]
    rfl
  exact ⟨.percentOf percent ofWord fraction base.1, fun place => .percentOf (base.2 .operand)⟩

mutual

theorem parseExpression_grammar (src : Source) (ts : List Token) :
    Gives ts (IsExpression ts) (parseExpression src ts) := by
  rw [parseExpression_eq]
  exact (parseOperators_grammar src 1 ts).map fun p h => withTarget_grammar h
termination_by (ts.length, 3)

theorem parseOperators_grammar (src : Source) (least : Nat) (ts : List Token) :
    Gives ts (ChainFrom least ts) (parseOperators src least ts) := by
  rw [parseOperators_eq]
  refine (parseOperand_grammar src ts).bind fun p operand => ?_
  have fits : Fits least p.value (ts.drop p.used) := fun place _ => operand.2 place
  intro q eq
  exact .intro operand.1 operand.2 (climb_grammar src least p.value (ts.drop p.used) fits q eq)
termination_by (ts.length, 2)
decreasing_by
  · exact Prod.Lex.right _ (by decide)
  · simp only [List.length_drop, Prod.lex_def]
    omega

theorem climb_grammar (src : Source) (least : Nat) (left : Expr) (ts : List Token)
    (fits : Fits least left ts) : Gives ts (Climbs least left ts) (climb src least left ts) := by
  match ts with
  | [] =>
    rw [climb]
    exact .ok (.stop nofun fits)
  | t :: rest =>
    cases op? : binaryOp? t.kind with
    | none =>
      rw [climb, op?]
      refine .ok (.stop (fun next follows => ?_) fits)
      simp [nextOp?, op?] at follows
    | some op =>
      by_cases loose : op.precedence < least
      · rw [climb, op?]
        simp only [loose, if_true]
        refine .ok (.stop (fun next follows => ?_) fits)
        obtain rfl : op = next := by simpa [nextOp?, op?] using follows
        exact loose
      · rw [climb_eq op? loose]
        refine Gives.behind rfl (Gives.bind (parseOperators_grammar src op.rightPrecedence rest)
          fun p right => ?_) (R := Climbs least left (t :: rest)) fun v rest h => h
        intro q eq
        exact (climb_grammar src least (.binary left op p.value) (rest.drop p.used)
          (fits.step op? (Nat.not_lt.mp loose) right) q eq).step op? right
termination_by (ts.length, 1)
decreasing_by
  all_goals simp only [List.length_drop, List.length_cons, Prod.lex_def]; omega

theorem parseOperand_grammar (src : Source) (ts : List Token) :
    Gives ts (IsOperand ts) (parseOperand src ts) := by
  match ts with
  | [] =>
    rw [parseOperand]
    exact .ok ⟨.missing, fun place => .literal⟩
  | t :: rest =>
    cases sign? : signOp? t.kind with
    | none =>
      rw [parseOperand_eq_primary sign?]
      exact .behind rfl (parsePrimary_grammar src t rest sign?) fun e rest h => h
    | some sign =>
      rw [parseOperand_eq_signed sign?]
      refine .behind rfl (parseOperand_grammar src rest) fun e rest operand => ?_
      exact ⟨.signed sign? operand.1, fun place => .signed (operand.2 .operand)⟩
termination_by (ts.length, 1)

theorem parsePrimary_grammar (src : Source) (t : Token) (ts : List Token)
    (noSign : signOp? t.kind = none) :
    Gives ts (IsOperand (t :: ts)) (parsePrimary src t ts) := by
  rw [parsePrimary_eq]
  split
  · next group =>
    have group := beq_iff_eq.mp group
    split
    · next closes =>
      match ts with
      | u :: rest =>
        have closing : u.kind = .rightParen := by simpa [startsWith] using closes
        exact .ok ⟨.emptyGroup group closing, fun place => .literal⟩
    · next opens =>
      refine (parseExpression_grammar src ts).map fun p inner => ?_
      show IsOperand _ (parseClosing _ _ _ _).value (ts.drop (p.used + (parseClosing _ _ _ _).used))
      rw [← List.drop_drop, parseClosing_grammar.1, parseClosing_grammar.2]
      exact ⟨.group group (Bool.eq_false_iff.mpr opens) inner.1,
        fun place => .group (inner.2 .whole (.inr rfl))⟩
  · next noGroup =>
    have noGroup : t.kind ≠ .leftParen := fun kind => noGroup (beq_iff_eq.mpr kind)
    match ts with
    | [] =>
      intro p eq
      have leaf := parseSimple_grammar noSign noGroup (fun _ => rfl) (fun _ => rfl) p eq
      exact ⟨.leaf leaf, leaf.nested⟩
    | u :: rest =>
      simp only
      split
      · next percent =>
        obtain ⟨percent, ofWord⟩ := by simpa using percent
        exact percentOf_grammar percent ofWord (parseOperand_grammar src rest)
      · next noBase =>
        split
        · next call =>
          obtain ⟨word, opens⟩ := by simpa using call
          exact .behind rfl (parseCall_grammar src word opens rest) fun e rest h => h
        · next noCall =>
          intro p eq
          have leaf := parseSimple_grammar noSign noGroup
            (by simpa [startsWith] using noBase) (by simpa [startsWith] using noCall) p eq
          exact ⟨.leaf leaf, leaf.nested⟩
termination_by (ts.length, 5)

theorem parseCall_grammar (src : Source) {t u : Token} (word : t.kind = .word)
    (opens : u.kind = .leftParen) (ts : List Token) :
    Gives ts (IsOperand (t :: u :: ts)) (parseCall src t.text ts) := by
  rw [parseCall_eq]
  split
  · next closes =>
    match ts with
    | closing :: rest =>
      have closing : closing.kind = .rightParen := by simpa [startsWith] using closes
      exact .ok ⟨.emptyCall word opens closing, fun place => .call (List.forall_mem_nil _)⟩
  · next more =>
    refine (parseArgs_grammar src ts).map fun p args => ?_
    show IsOperand _ (parseClosing _ _ _ _).value (ts.drop (p.used + (parseClosing _ _ _ _).used))
    rw [← List.drop_drop, parseClosing_grammar.1, parseClosing_grammar.2]
    exact ⟨.call word opens (Bool.eq_false_iff.mpr more) args.1, fun place => .call args.2⟩
termination_by (ts.length, 5)

theorem parseArgs_grammar (src : Source) (ts : List Token) :
    Gives ts (AreArgs ts) (parseArgs src ts) := by
  rw [parseArgs_eq]
  refine (parseExpression_grammar src ts).bind fun p first => ?_
  have nested : p.value.Nested .whole := first.2 .whole (.inr rfl)
  match left : ts.drop p.used with
  | [] =>
    have last : Args ts [p.value] [] := .last (left ▸ first.1) rfl
    exact .ok ⟨last, by simpa using nested⟩
  | t :: more =>
    rw [left] at first
    simp only [parseMoreArgs]
    split
    · next comma =>
      refine .behind rfl (parseArgs_grammar src more) fun es rest others => ?_
      exact ⟨.cons first.1 (beq_iff_eq.mp comma) others.1, by simpa using ⟨nested, others.2⟩⟩
    · next noComma =>
      have last : Args ts [p.value] (t :: more) :=
        .last first.1 (by simpa [startsWith] using noComma)
      exact .ok ⟨last, by simpa using nested⟩
termination_by (ts.length, 4)
decreasing_by
  · exact Prod.Lex.right _ (by decide)
  · exact Prod.Lex.left _ _ (length_lt_of_drop left)

end

/-! ## Lines -/

/-- A statement that is nested by the rules. -/
def IsStatement (ts : List Token) (statement : Statement) (rest : List Token) : Prop :=
  Says ts statement rest ∧ statement.Nested

theorem parseStatement_grammar (src : Source) (t : Token) (ts : List Token) :
    Gives (t :: ts) (IsStatement (t :: ts)) (parseStatement src (t :: ts)) := by
  simp only [parseStatement]
  split
  · next assigns =>
    obtain ⟨word, equals⟩ := by simpa using assigns
    match ts with
    | u :: rest =>
      have equals : u.kind = .equals := by simpa [startsWith] using equals
      refine .behind rfl (parseExpression_grammar src rest) fun e rest h => ?_
      exact ⟨.assign word equals h.1, h.2 .whole (.inr rfl)⟩
  · next noAssignment =>
    cases op? : binaryOp? t.kind with
    | some op =>
      refine .behind rfl (parseExpression_grammar src ts) fun e rest h => ?_
      exact ⟨.resume op? h.1, .resume (h.2 .whole (.inr rfl))⟩
    | none =>
      simp only
      split
      · next converts =>
        refine .ok ?_
        show IsStatement _ _ ((t :: ts).drop (1 + (parseTarget src ts).used))
        rw [Nat.add_comm, List.drop_succ_cons]
        exact ⟨.resumeConversion (beq_iff_eq.mp converts) parseTarget_grammar, .resumeConversion⟩
      · next noConversion =>
        refine .behind rfl (parseExpression_grammar src (t :: ts)) fun e rest h => ?_
        have fresh : t.kind ≠ .inWord := fun kind => noConversion (beq_iff_eq.mpr kind)
        exact ⟨.expr op? fresh (Bool.eq_false_iff.mpr noAssignment) h.1, h.2 .line (.inl rfl)⟩

end Parser

open LineCalc.Parser

/-- A parsed text has a tree by the grammar: the tree has the operands and operators of the tokens
in their order, `in` converts all of a chain, and what stands under an operator, a sign or a
percentage without parentheses is nested by the rules of precedence. -/
theorem parse_by_grammar (text : String) :
    (∀ line problems, Line.parse text = .ok (line, problems) →
      line.statement.Nested ∧
        ∃ rest, Grammar.Says (body (Token.ofText text)) line.statement rest) ∧
    (∀ e problems, Expr.parse text = .ok (some e, problems) →
      e.Nested .whole ∧ ∃ rest, Grammar.Whole (body (Token.ofText text)) e rest) := by
  constructor
  · intro line problems h
    unfold Line.parse parseTokens at h
    cases tokens : body (Token.ofText text) with
    | nil =>
      obtain ⟨rfl, rfl⟩ := by simpa [tokens] using h
      cases lastComment? (Token.ofText text) with
      | none => exact ⟨trivial, [], .empty⟩
      | some comment => exact ⟨trivial, [], .comment⟩
    | cons t ts =>
      simp only [tokens] at h
      obtain ⟨p, parsed, made⟩ := map_ok_iff.mp h
      obtain ⟨rfl, rfl⟩ := Prod.mk.inj made
      obtain ⟨spelled, nested⟩ := parseStatement_grammar _ t ts p parsed
      exact ⟨nested, _, spelled⟩
  · intro e problems h
    simp only [Expr.parse] at h
    split at h
    · cases h
    · obtain ⟨p, parsed, made⟩ := map_ok_iff.mp h
      obtain ⟨rfl, rfl⟩ := by simpa using made
      obtain ⟨whole, nested⟩ := parseExpression_grammar _ _ p parsed
      exact ⟨nested .whole (.inr rfl), _, whole⟩

/-! ### Two subtractions, two powers and a conversion -/

section

/-- A number in the text below. -/
def exTwo : Expr := .literal 2 .plain "2"

/-- The tree of `2 - 2 - 2 ^ 2 ^ 2 in km`. -/
def exTower : Expr :=
  .conversion (.binary (.binary exTwo .sub exTwo) .sub
    (.binary exTwo .pow (.binary exTwo .pow exTwo))) "km"

/-- Its tokens. -/
def exTowerTokens : List Token :=
  [⟨.number, "2", 0, 1, 1⟩, ⟨.minus, "-", 2, 1, 3⟩, ⟨.number, "2", 4, 1, 5⟩,
    ⟨.minus, "-", 6, 1, 7⟩, ⟨.number, "2", 8, 1, 9⟩, ⟨.caret, "^", 10, 1, 11⟩,
    ⟨.number, "2", 12, 1, 13⟩, ⟨.caret, "^", 14, 1, 15⟩, ⟨.number, "2", 16, 1, 17⟩,
    ⟨.inWord, "in", 18, 1, 19⟩, ⟨.word, "km", 21, 1, 22⟩, ⟨.finish, "", 23, 1, 24⟩]

theorem ofText_exTower : Token.ofText "2 - 2 - 2 ^ 2 ^ 2 in km" = exTowerTokens := by
  cbv

theorem parseExpression_exTower (src : Source) :
    parseExpression src (body exTowerTokens) = .ok ⟨exTower, 11, []⟩ := by
  have amount : amountOf "2" = .ok 2 := eq_ok_of_toOption (by decide +kernel)
  simp [exTowerTokens, parseExpression, parseOperators, climb, parseOperand, parsePrimary,
    parseSimple, parseNumber, parseTarget, suffixOf, amount, body, startsWith, binaryOp?, signOp?,
    BinaryOp.precedence, BinaryOp.rightPrecedence, TokenKind.isSymbol, Parsed.behind, exTower,
    exTwo]

theorem parse_exTower : Line.parse "2 - 2 - 2 ^ 2 ^ 2 in km" =
    .ok (⟨.expr exTower, none, "2 - 2 - 2 ^ 2 ^ 2 in km"⟩, []) := by
  rw [Line.parse, ofText_exTower]
  show (parseStatement _ (body exTowerTokens)).map _ = _
  have statement (src : Source) : parseStatement src (body exTowerTokens) =
      (parseExpression src (body exTowerTokens)).map (·.behind 0 [] .expr) := rfl
  rw [statement, parseExpression_exTower]
  rfl

theorem parseExpr_exTower : Expr.parse "2 - 2 - 2 ^ 2 ^ 2 in km" = .ok (some exTower, []) := by
  rw [Expr.parse, ofText_exTower]
  show (parseExpression _ (body exTowerTokens)).map _ = _
  rw [parseExpression_exTower]
  rfl

end

theorem parse_by_grammar_exTower :
    (Line.parse "2 - 2 - 2 ^ 2 ^ 2 in km" =
        .ok (⟨.expr exTower, none, "2 - 2 - 2 ^ 2 ^ 2 in km"⟩, []) ∧
      exTower.Nested .line ∧ ∃ rest, Grammar.Says (body exTowerTokens) (.expr exTower) rest) ∧
    (Expr.parse "2 - 2 - 2 ^ 2 ^ 2 in km" = .ok (some exTower, []) ∧
      exTower.Nested .whole ∧ ∃ rest, Grammar.Whole (body exTowerTokens) exTower rest) := by
  have grammar := parse_by_grammar "2 - 2 - 2 ^ 2 ^ 2 in km"
  rw [ofText_exTower] at grammar
  exact ⟨⟨parse_exTower, grammar.1 _ _ parse_exTower⟩, parseExpr_exTower,
    grammar.2 _ _ parseExpr_exTower⟩

end LineCalc
