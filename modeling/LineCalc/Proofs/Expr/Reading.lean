import LineCalc.Proofs.Expr.Numeral
import LineCalc.Proofs.Expr.Parser
import LineCalc.Proofs.Result

/-!
# What parsing takes up

What the parser does with a token depends on its kind and, for words and symbols, on its text, but
not on the amount of a numeral. So a parse can be compared with the parse of the same tokens with a
zero in the place of each numeral: the latter always has a result, and the former has one unless
there is a numeral without an amount among the tokens that the latter takes up.

Results:
1. `parseExpression_reads`, `parseStatement_reads`: both parses take up the same tokens, up to the
   first numeral without an amount.
-/

namespace LineCalc

/-- The token is a numeral that names no amount. -/
def Token.unreadable (t : Token) : Bool :=
  t.isNumeral && (Decimal.floatOf? (Parser.valueChars t.text)).isNone

/-- The token with a zero in the place of a numeral. -/
def Token.zeroed (t : Token) : Token := if t.isNumeral then { t with text := "0" } else t

namespace Parser

variable {α β γ γ' δ δ' : Type} {src : Source} {t : Token} {ts : List Token}

/-! ## Single tokens -/

@[simp] theorem kind_zeroed (t : Token) : t.zeroed.kind = t.kind := by
  unfold Token.zeroed
  split <;> rfl

theorem zeroed_eq_self (h : t.isNumeral = false) : t.zeroed = t := by
  simp [Token.zeroed, h]

theorem not_numeral_of_kind {kind : TokenKind} (h : t.kind = kind)
    (number : kind ≠ .number := by decide) (percent : kind ≠ .percent := by decide) :
    t.isNumeral = false := by
  simp [Token.isNumeral, h, number, percent]

/-- What is so of a kind, but of neither kind of numeral, is so of no numeral. -/
theorem not_numeral_of {P : TokenKind → Prop} (h : P t.kind) (number : ¬P .number)
    (percent : ¬P .percent) : t.isNumeral = false := by
  refine not_numeral_of_kind rfl ?_ ?_
  · intro kind
    exact number (kind ▸ h)
  · intro kind
    exact percent (kind ▸ h)

theorem readable_of_not_numeral (h : t.isNumeral = false) : t.unreadable = false := by
  simp [Token.unreadable, h]

theorem amountOf_of_unreadable (h : t.unreadable = true) : amountOf t.text = .error t.fault := by
  simp only [Token.unreadable, Bool.and_eq_true, Option.isNone_iff_eq_none] at h
  rw [amountOf, h.2]
  rfl

theorem amountOf_of_readable (numeral : t.isNumeral = true) (h : t.unreadable = false) :
    ∃ x, amountOf t.text = .ok x := by
  simp only [Token.unreadable, numeral, Bool.true_and, Option.isNone_eq_false_iff] at h
  obtain ⟨x, hx⟩ := Option.isSome_iff_exists.mp h
  exact ⟨x, by rw [amountOf, hx]⟩

theorem amountOf_zeroed (numeral : t.isNumeral = true) : amountOf t.zeroed.text = .ok 0 := by
  have zero : amountOf "0" = .ok 0 := eq_ok_of_toOption (by decide +kernel)
  rw [Token.zeroed, if_pos numeral]
  exact zero

theorem startsWith_zeroed (kind : TokenKind) :
    startsWith kind (ts.map Token.zeroed) = startsWith kind ts := by
  cases ts with
  | nil => rfl
  | cons t ts => simp [startsWith]

theorem suffixOf_zeroed : suffixOf t.zeroed (ts.map Token.zeroed) = suffixOf t ts := by
  cases numeral : t.isNumeral with
  | false => rw [zeroed_eq_self numeral, suffixOf, suffixOf, startsWith_zeroed]
  | true =>
    simp only [Token.isNumeral, Bool.or_eq_true, beq_iff_eq] at numeral
    rcases numeral with kind | kind <;> simp [suffixOf, kind, TokenKind.isSymbol]

/-- A token that gives an amount its denomination is no numeral. -/
theorem not_numeral_of_suffixOf {d : Denomination} (h : suffixOf t ts = some d) :
    t.isNumeral = false := by
  rw [Bool.eq_false_iff]
  intro numeral
  simp only [Token.isNumeral, Bool.or_eq_true, beq_iff_eq] at numeral
  rcases numeral with kind | kind <;> simp [suffixOf, kind, TokenKind.isSymbol] at h

theorem not_numeral_of_isSymbol (h : t.kind.isSymbol = true) : t.isNumeral = false :=
  not_numeral_of (P := fun kind => kind.isSymbol = true) h (by decide) (by decide)

/-! ## Outcomes -/

/-- Of two outcomes of reading a part of `ts`, the one with zeros in the place of numerals is a
result. The other is one too, and has used as many tokens, unless one of the tokens up to there is a
numeral without an amount: then the first of them is its fault. Ahead of the part `before` tokens
were read. -/
def Reads (ts : List Token) (before : Nat) (given : Outcome α) (zeros : Outcome β) : Prop :=
  ∃ p, zeros = .ok p ∧
    match (ts.take (before + p.used)).find? Token.unreadable with
    | none => ∃ q, given = .ok q ∧ q.used = p.used
    | some t => given = .error t.fault

variable {before : Nat} {given : Outcome α} {zeros : Outcome β}

theorem Reads.ok {q : Parsed α} {p : Parsed β} (used : q.used = p.used)
    (readable : ∀ t ∈ ts.take (before + p.used), t.unreadable = false) :
    Reads ts before (.ok q) (.ok p) := by
  have none : (ts.take (before + p.used)).find? Token.unreadable = none := by
    simpa using readable
  exact ⟨p, rfl, by rw [none]; exact ⟨q, rfl, used⟩⟩

/-- A token that is no numeral has been read ahead of the part. -/
theorem Reads.after (h : Reads ts before given zeros) (readable : t.unreadable = false) :
    Reads (t :: ts) (before + 1) given zeros := by
  obtain ⟨p, hp, h⟩ := h
  refine ⟨p, hp, ?_⟩
  rw [Nat.add_right_comm, List.take_succ_cons, List.find?_cons_of_neg (by simp [readable])]
  exact h

theorem Reads.behind {n : Nat} (h : Reads ts (before + n) given zeros)
    {earlier earlier' : List Diagnostic} {f : α → γ} {g : β → δ} :
    Reads ts before (given.map (·.behind n earlier f)) (zeros.map (·.behind n earlier' g)) := by
  obtain ⟨p, rfl, h⟩ := h
  refine ⟨_, rfl, ?_⟩
  show match (ts.take (before + (n + p.used))).find? Token.unreadable with
    | none => _
    | some t => _
  rw [← Nat.add_assoc]
  split at h
  · obtain ⟨q, rfl, used⟩ := h
    exact ⟨_, rfl, congrArg (n + ·) used⟩
  · rw [h]
    rfl

theorem Reads.ok_behind {n : Nat} {q : Parsed α} {p : Parsed β}
    (h : Reads ts (before + n) (.ok q) (.ok p)) {earlier earlier' : List Diagnostic}
    {f : α → γ} {g : β → δ} :
    Reads ts before (.ok (q.behind n earlier f)) (.ok (p.behind n earlier' g)) :=
  h.behind

theorem find?_take_add {p : Token → Bool} {n k : Nat} :
    (ts.take (n + k)).find? p = ((ts.take n).find? p).or (((ts.drop n).take k).find? p) := by
  rw [List.take_add, List.find?_append]

/-- A second part is read after a first one. -/
theorem Reads.bind [Inhabited α] {next : Parsed α → Outcome γ} {next' : Parsed β → Outcome δ}
    {e : Parsed α → List Diagnostic} {e' : Parsed β → List Diagnostic} {f : Parsed α → γ → γ'}
    {f' : Parsed β → δ → δ'} (first : Reads ts before given zeros)
    (second : ∀ q p, q.used = p.used →
      Reads (ts.drop (before + p.used)) 0 (next q) (next' p)) :
    Reads ts before (given.bind fun q => (next q).map (·.behind q.used (e q) (f q)))
      (zeros.bind fun p => (next' p).map (·.behind p.used (e' p) (f' p))) := by
  obtain ⟨p, rfl, first⟩ := first
  cases found : (ts.take (before + p.used)).find? Token.unreadable with
  | some t =>
    -- The given parse has ended here; any value will do to see that the other one goes on.
    obtain ⟨r, hr, _⟩ := second ⟨default, p.used, []⟩ p rfl
    rw [found] at first
    refine ⟨r.behind p.used (e' p) (f' p), by simp only [Except.bind, hr, Except.map], ?_⟩
    show match (ts.take (before + (p.used + r.used))).find? Token.unreadable with
      | none => _
      | some t => _
    rw [← Nat.add_assoc, find?_take_add, found, first]
    rfl
  | none =>
    -- Both parses have come to the second part, so the first numeral to stop at is one of its own.
    rw [found] at first
    obtain ⟨q, rfl, used⟩ := first
    obtain ⟨r, hr, second⟩ := second q p used
    refine ⟨r.behind p.used (e' p) (f' p), by simp only [Except.bind, hr, Except.map], ?_⟩
    show match (ts.take (before + (p.used + r.used))).find? Token.unreadable with
      | none => _
      | some t => _
    rw [← Nat.add_assoc, find?_take_add, found, Option.none_or]
    rw [Nat.zero_add] at second
    split at second
    · obtain ⟨q', hq', used'⟩ := second
      refine ⟨q'.behind q.used (e q) (f q), by simp only [Except.bind, hq', Except.map], ?_⟩
      show q.used + q'.used = p.used + r.used
      rw [used, used']
    · simp only [Except.bind, second, Except.map]

/-- What follows a part takes up some more tokens, none of them a numeral. -/
theorem Reads.map [Inhabited α] {f : Parsed α → Parsed γ} {g : Parsed β → Parsed δ}
    (h : Reads ts before given zeros)
    (more : ∀ q p, q.used = p.used → ∃ k, (f q).used = p.used + k ∧ (g p).used = p.used + k ∧
      ∀ t ∈ (ts.drop (before + p.used)).take k, t.unreadable = false) :
    Reads ts before (given.map f) (zeros.map g) := by
  obtain ⟨p, rfl, h⟩ := h
  refine ⟨g p, rfl, ?_⟩
  split at h
  · next found =>
    obtain ⟨q, rfl, used⟩ := h
    obtain ⟨k, hf, hg, readable⟩ := more q p used
    have none : ((ts.drop (before + p.used)).take k).find? Token.unreadable = none := by
      simpa using readable
    rw [hg, ← Nat.add_assoc, find?_take_add, found, none]
    exact ⟨f q, rfl, hf⟩
  · next t found =>
    obtain ⟨k, _, hg, _⟩ := more ⟨default, p.used, []⟩ p rfl
    rw [hg, ← Nat.add_assoc, find?_take_add, found, h]
    rfl

/-- A part that begins with the amount of a numeral. -/
theorem Reads.amount {next : Float → Outcome α} {next' : Float → Outcome β}
    (numeral : t.isNumeral = true) (h : ∀ x, Reads ts before (next x) (next' 0)) :
    Reads (t :: ts) (before + 1) ((amountOf t.text).bind next)
      ((amountOf t.zeroed.text).bind next') := by
  rw [amountOf_zeroed numeral]
  cases readable : t.unreadable with
  | false =>
    obtain ⟨x, hx⟩ := amountOf_of_readable numeral readable
    rw [hx]
    exact (h x).after readable
  | true =>
    obtain ⟨p, hp, _⟩ := h 0
    refine ⟨p, hp, ?_⟩
    rw [Nat.add_right_comm, List.take_succ_cons, List.find?_cons_of_pos readable,
      amountOf_of_unreadable readable]
    rfl

/-! ## Parts without an expression inside -/

theorem not_numeral_of_startsWith {kind : TokenKind} (h : startsWith kind ts = true)
    (number : kind ≠ .number := by decide) (percent : kind ≠ .percent := by decide) :
    ∀ t ∈ ts.take 1, t.unreadable = false := by
  cases ts with
  | nil => cases h
  | cons t ts =>
    have kind : t.kind = kind := by simpa [startsWith] using h
    intro u mem
    cases List.mem_singleton.mp mem
    exact readable_of_not_numeral (not_numeral_of_kind kind number percent)

theorem parseNumber_reads (numeral : t.isNumeral = true) :
    Reads (t :: ts) 1 (parseNumber src t ts)
      (parseNumber src t.zeroed (ts.map Token.zeroed)) := by
  rw [parseNumber_eq, parseNumber_eq]
  refine Reads.amount numeral fun x => ?_
  cases ts with
  | nil => exact .ok rfl (List.forall_mem_nil _)
  | cons next rest =>
    simp only [List.map_cons, suffixOf_zeroed]
    cases suffix : suffixOf next rest with
    | none => exact .ok rfl (List.forall_mem_nil _)
    | some d =>
      refine .ok rfl fun u mem => ?_
      cases List.mem_singleton.mp mem
      exact readable_of_not_numeral (not_numeral_of_suffixOf suffix)

theorem parsePercent_reads (numeral : t.isNumeral = true) :
    Reads (t :: ts) 1 (parsePercent t) (parsePercent t.zeroed) := by
  rw [parsePercent_eq, parsePercent_eq]
  exact Reads.amount numeral fun x => .ok rfl (List.forall_mem_nil _)

theorem percentOf_reads {base base' : Outcome Expr} (numeral : t.isNumeral = true)
    (h : Reads ts 1 base base') :
    Reads (t :: ts) 1 (percentOf t base) (percentOf t.zeroed base') := by
  rw [percentOf_eq, percentOf_eq]
  exact Reads.amount numeral fun x => h.behind

theorem amountBeside_reads {symbol : Token} {negative : Bool} (numeral : t.isNumeral = true) :
    Reads (t :: ts) 1
      ((amountOf t.text).bind fun x => .ok (amountBeside src symbol negative t x))
      ((amountOf t.zeroed.text).bind fun x =>
        .ok (amountBeside src symbol negative t.zeroed x)) := by
  have unused : ∀ u x, (amountBeside src symbol negative u x).used = 0 := by
    intro u x
    unfold amountBeside
    split <;> rfl
  refine Reads.amount numeral fun x => .ok ?_ ?_
  · rw [unused, unused]
  · rw [unused]
    exact List.forall_mem_nil _

theorem parseSymbol_reads {symbol : Token} (h : symbol.isNumeral = false) :
    Reads (symbol :: ts) 1 (parseSymbol src symbol ts)
      (parseSymbol src symbol (ts.map Token.zeroed)) := by
  have readable := readable_of_not_numeral h
  cases ts with
  | nil => exact .ok rfl (by simpa [withoutAmount] using readable)
  | cons first rest =>
    simp only [parseSymbol, List.map_cons, kind_zeroed]
    split
    · next number =>
      have numeral : first.isNumeral = true := by simp_all [Token.isNumeral]
      rw [symbolAmount_eq, symbolAmount_eq]
      refine Reads.behind ?_
      show Reads _ 2 _ _
      exact (amountBeside_reads numeral).after readable
    · cases rest with
      | nil => exact .ok rfl (by simpa [withoutAmount] using readable)
      | cons second rest =>
        simp only [List.map_cons, kind_zeroed]
        split
        · next signed =>
          simp only [Bool.and_eq_true, beq_iff_eq] at signed
          have sign := readable_of_not_numeral (not_numeral_of_kind signed.1)
          have numeral : second.isNumeral = true := by simp [Token.isNumeral, signed.2]
          rw [symbolAmount_eq, symbolAmount_eq]
          refine Reads.behind ?_
          show Reads _ 3 _ _
          exact ((amountBeside_reads numeral).after sign).after readable
        · exact .ok rfl (by simpa [withoutAmount] using readable)

theorem parseTarget_reads (src : Source) (ts : List Token) : ∃ k, (parseTarget src ts).used = k ∧
    (parseTarget src (ts.map Token.zeroed)).used = k ∧
    ∀ t ∈ ts.take k, t.unreadable = false := by
  cases ts with
  | nil => exact ⟨0, rfl, rfl, List.forall_mem_nil _⟩
  | cons t ts =>
    simp only [parseTarget, List.map_cons, kind_zeroed]
    split
    · next target =>
      refine ⟨1, rfl, rfl, fun u mem => ?_⟩
      cases List.mem_singleton.mp mem
      simp only [Bool.or_eq_true, beq_iff_eq] at target
      rcases target with word | symbol
      · exact readable_of_not_numeral (not_numeral_of_kind word)
      · exact readable_of_not_numeral (not_numeral_of_isSymbol symbol)
    · exact ⟨0, rfl, rfl, List.forall_mem_nil _⟩

theorem parseSimple_reads :
    Reads (t :: ts) 1 (parseSimple src t ts)
      (parseSimple src t.zeroed (ts.map Token.zeroed)) := by
  unfold parseSimple
  simp only [kind_zeroed]
  split
  · next number => exact parseNumber_reads (by simp_all [Token.isNumeral])
  split
  · next percent => exact parsePercent_reads (by simp_all [Token.isNumeral])
  next notNumber notPercent =>
  have not_numeral : t.isNumeral = false := by simp_all [Token.isNumeral]
  have readable := readable_of_not_numeral not_numeral
  rw [zeroed_eq_self not_numeral]
  split
  · exact parseSymbol_reads not_numeral
  · split <;> exact .ok rfl (by simpa using readable)

/-! ## Parts with expressions inside -/

theorem binaryOp?_not_numeral {op : BinaryOp} (h : binaryOp? t.kind = some op) :
    t.isNumeral = false :=
  not_numeral_of (P := fun kind => binaryOp? kind = some op) h (by simp [binaryOp?])
    (by simp [binaryOp?])

theorem signOp?_not_numeral {sign : SignOp} (h : signOp? t.kind = some sign) :
    t.isNumeral = false :=
  not_numeral_of (P := fun kind => signOp? kind = some sign) h (by simp [signOp?])
    (by simp [signOp?])

theorem withTarget_reads {q p : Parsed Expr} (used : q.used = p.used) :
    ∃ k, (withTarget src ts q).used = p.used + k ∧
      (withTarget src (ts.map Token.zeroed) p).used = p.used + k ∧
      ∀ t ∈ (ts.drop p.used).take k, t.unreadable = false := by
  unfold withTarget
  rw [used, ← List.map_drop, startsWith_zeroed]
  generalize ts.drop p.used = rest
  split
  · next converts =>
    obtain ⟨k, hq, hp, readable⟩ := parseTarget_reads src (rest.drop 1)
    refine ⟨1 + k, ?_, ?_, ?_⟩
    · rw [← hq, ← Nat.add_assoc, ← used]
      rfl
    · rw [← hp, ← Nat.add_assoc, List.map_drop]
      rfl
    · rw [List.take_add]
      intro t mem
      rcases List.mem_append.mp mem with mem | mem
      · exact not_numeral_of_startsWith converts (by decide) (by decide) t mem
      · exact readable t mem
  · exact ⟨0, used, rfl, List.forall_mem_nil _⟩

theorem parseClosing_reads {γ' δ' : Type} {value : γ} {value' : δ} {cause : SyntaxProblem} {n : Nat}
    {e e' : List Diagnostic} {f : γ → γ'} {g : δ → δ'} :
    ∃ k, ((parseClosing src cause (ts.drop n) value).behind n e f).used = n + k ∧
      ((parseClosing src cause ((ts.map Token.zeroed).drop n) value').behind n e' g).used =
        n + k ∧
      ∀ t ∈ (ts.drop n).take k, t.unreadable = false := by
  unfold parseClosing
  rw [← List.map_drop, startsWith_zeroed]
  split
  · next closes => exact ⟨1, rfl, rfl, not_numeral_of_startsWith closes⟩
  · exact ⟨0, rfl, rfl, List.forall_mem_nil _⟩

mutual

theorem parseExpression_reads (src : Source) (ts : List Token) :
    Reads ts 0 (parseExpression src ts) (parseExpression src (ts.map Token.zeroed)) := by
  rw [parseExpression_eq, parseExpression_eq]
  refine Reads.map (parseOperators_reads src 1 ts) fun q p used => ?_
  rw [Nat.zero_add]
  exact withTarget_reads used
termination_by (ts.length, 3)

theorem parseOperators_reads (src : Source) (least : Nat) (ts : List Token) :
    Reads ts 0 (parseOperators src least ts) (parseOperators src least (ts.map Token.zeroed)) := by
  rw [parseOperators_eq, parseOperators_eq]
  refine Reads.bind (parseOperand_reads src ts) fun q p used => ?_
  rw [Nat.zero_add, used, ← List.map_drop]
  exact climb_reads src least q.value p.value (ts.drop p.used)
termination_by (ts.length, 2)
decreasing_by
  · exact Prod.Lex.right _ (by decide)
  · simp only [List.length_drop, Prod.lex_def]
    omega

theorem climb_reads (src : Source) (least : Nat) (left left' : Expr) (ts : List Token) :
    Reads ts 0 (climb src least left ts) (climb src least left' (ts.map Token.zeroed)) := by
  match ts with
  | [] =>
    rw [climb, List.map_nil, climb]
    exact .ok rfl (List.forall_mem_nil _)
  | t :: rest =>
    cases op? : binaryOp? t.kind with
    | none =>
      rw [climb, List.map_cons, climb, kind_zeroed, op?]
      exact .ok rfl (List.forall_mem_nil _)
    | some op =>
      by_cases loose : op.precedence < least
      · rw [climb, List.map_cons, climb, kind_zeroed, op?]
        simp only [loose, if_true]
        exact .ok rfl (List.forall_mem_nil _)
      · have readable := readable_of_not_numeral (binaryOp?_not_numeral op?)
        rw [climb_eq op? loose, List.map_cons, climb_eq (by rw [kind_zeroed, op?]) loose]
        refine Reads.behind (Reads.after (Reads.bind
          (parseOperators_reads src op.rightPrecedence rest) fun q p used => ?_) readable)
        rw [Nat.zero_add, used, ← List.map_drop]
        exact climb_reads src least (.binary left op q.value) (.binary left' op p.value)
          (rest.drop p.used)
termination_by (ts.length, 1)
decreasing_by
  all_goals simp only [List.length_drop, List.length_cons, Prod.lex_def]; omega

theorem parseOperand_reads (src : Source) (ts : List Token) :
    Reads ts 0 (parseOperand src ts) (parseOperand src (ts.map Token.zeroed)) := by
  match ts with
  | [] =>
    rw [parseOperand, List.map_nil, parseOperand]
    exact .ok rfl (List.forall_mem_nil _)
  | t :: rest =>
    cases sign? : signOp? t.kind with
    | none =>
      rw [parseOperand_eq_primary sign?, List.map_cons,
        parseOperand_eq_primary (by rw [kind_zeroed, sign?])]
      exact Reads.behind (parsePrimary_reads src t rest)
    | some sign =>
      have readable := readable_of_not_numeral (signOp?_not_numeral sign?)
      rw [parseOperand_eq_signed sign?, List.map_cons,
        parseOperand_eq_signed (by rw [kind_zeroed, sign?])]
      exact Reads.behind (Reads.after (parseOperand_reads src rest) readable)
termination_by (ts.length, 1)

theorem parsePrimary_reads (src : Source) (t : Token) (ts : List Token) :
    Reads (t :: ts) 1 (parsePrimary src t ts)
      (parsePrimary src t.zeroed (ts.map Token.zeroed)) := by
  rw [parsePrimary_eq, parsePrimary_eq, kind_zeroed, startsWith_zeroed]
  split
  · next group =>
    have readable := readable_of_not_numeral
      (not_numeral_of_kind (beq_iff_eq.mp group))
    split
    · next closes =>
      exact (Reads.ok rfl (not_numeral_of_startsWith closes)).after readable
    · refine Reads.after (Reads.map (parseExpression_reads src ts) fun q p used => ?_) readable
      rw [Nat.zero_add, used]
      exact parseClosing_reads
  · match ts with
    | [] => exact parseSimple_reads
    | u :: rest =>
      simp only [List.map_cons, kind_zeroed]
      split
      · next percent =>
        simp only [Bool.and_eq_true, beq_iff_eq] at percent
        have numeral : t.isNumeral = true := by simp [Token.isNumeral, percent.1]
        have readable := readable_of_not_numeral (not_numeral_of_kind percent.2)
        exact percentOf_reads numeral (Reads.after (parseOperand_reads src rest) readable)
      · split
        · next call =>
          simp only [Bool.and_eq_true, beq_iff_eq] at call
          have not_numeral := not_numeral_of_kind call.1
          have readable := readable_of_not_numeral not_numeral
          have opening := readable_of_not_numeral (not_numeral_of_kind call.2)
          rw [zeroed_eq_self not_numeral]
          refine Reads.behind ?_
          show Reads _ 2 _ _
          exact ((parseCall_reads src t.text rest).after opening).after readable
        · exact parseSimple_reads
termination_by (ts.length, 5)

theorem parseCall_reads (src : Source) (function : String) (ts : List Token) :
    Reads ts 0 (parseCall src function ts) (parseCall src function (ts.map Token.zeroed)) := by
  rw [parseCall_eq, parseCall_eq, startsWith_zeroed]
  split
  · next closes => exact .ok rfl (not_numeral_of_startsWith closes)
  · refine Reads.map (parseArgs_reads src ts) fun q p used => ?_
    rw [Nat.zero_add, used]
    exact parseClosing_reads
termination_by (ts.length, 5)

theorem parseArgs_reads (src : Source) (ts : List Token) :
    Reads ts 0 (parseArgs src ts) (parseArgs src (ts.map Token.zeroed)) := by
  rw [parseArgs_eq, parseArgs_eq]
  refine Reads.bind (parseExpression_reads src ts) fun q p used => ?_
  rw [Nat.zero_add, used, ← List.map_drop]
  match rest : ts.drop p.used with
  | [] => exact .ok rfl (List.forall_mem_nil _)
  | t :: more =>
    simp only [parseMoreArgs, List.map_cons, kind_zeroed]
    split
    · next comma =>
      have readable := readable_of_not_numeral
        (not_numeral_of_kind (beq_iff_eq.mp comma))
      exact Reads.behind (Reads.after (parseArgs_reads src more) readable)
    · exact .ok rfl (List.forall_mem_nil _)
termination_by (ts.length, 4)
decreasing_by
  · exact Prod.Lex.right _ (by decide)
  · exact Prod.Lex.left _ _ (length_lt_of_drop rest)

end

theorem parseStatement_reads (src : Source) (ts : List Token) :
    Reads ts 0 (parseStatement src ts) (parseStatement src (ts.map Token.zeroed)) := by
  cases ts with
  | nil => exact (parseExpression_reads src []).behind
  | cons t rest =>
    simp only [parseStatement, List.map_cons, kind_zeroed, startsWith_zeroed]
    split
    · next assigns =>
      simp only [Bool.and_eq_true, beq_iff_eq] at assigns
      have readable := readable_of_not_numeral (not_numeral_of_kind assigns.1)
      refine Reads.behind ?_
      cases rest with
      | nil => cases assigns.2
      | cons equals rest =>
        have signs := not_numeral_of_startsWith assigns.2
        have sign := signs equals List.mem_cons_self
        exact ((parseExpression_reads src rest).after sign).after readable
    · cases op? : binaryOp? t.kind with
      | some op =>
        have readable := readable_of_not_numeral (binaryOp?_not_numeral op?)
        exact Reads.behind ((parseExpression_reads src rest).after readable)
      | none =>
        simp only
        split
        · next converts =>
          have readable := readable_of_not_numeral
            (not_numeral_of_kind (beq_iff_eq.mp converts))
          obtain ⟨k, hq, hp, target⟩ := parseTarget_reads src rest
          have target : Reads rest 0 (.ok (parseTarget src rest))
              (.ok (parseTarget src (rest.map Token.zeroed))) :=
            .ok (hq.trans hp.symm) (by rwa [hp, Nat.zero_add])
          exact Reads.ok_behind (target.after readable)
        · exact (parseExpression_reads src (t :: rest)).behind

end Parser

end LineCalc
