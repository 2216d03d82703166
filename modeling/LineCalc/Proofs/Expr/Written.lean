import LineCalc.Evaluation
import LineCalc.Proofs.Expr.AmountText
import LineCalc.Proofs.Expr.Origin
import LineCalc.Proofs.Evaluation.LeadingSign
import LineCalc.Proofs.Token.WrittenAmount

/-!
# Written parts

What is read from a text that is put together from the texts of its parts. A part of an expression
is written for a place where an operand may begin and for one where it may not: a minus sign in
front of a number is scanned as part of the number in the first and by itself in the second. Either
way what is read has the value of what was written.

Results:
1. `Spelled.toWhole`, `spelled_chain`: what is read as an operand, and operands with an operator.
2. `Written.negative`: what is written with a digit first, with a minus sign in front of it.
3. `written_group`, `written_name`, `written_call`: operands that begin otherwise.
-/

namespace LineCalc

open LineCalc.Decimal LineCalc.Parser LineCalc.Token LineCalc.Text

variable {α β : Type} {opens : Bool} {cs ds rest : List Char} {e e' left right : Expr}
  {src : Source} {t u : Token} {ts ts' more : List Token}
  {shapes shapes' : List (TokenKind × String)}

/-! ## Meaning -/

/-- An expression has the value of another one wherever it is evaluated, and does not go on from the
previous result. -/
structure Expr.Means (e' e : Expr) : Prop where
  value : ∀ s, e'.eval s = e.eval s
  fresh : e'.isContinuation = false

/-! ## Parts -/

/-- How a part is read, and what may follow it. -/
structure Part (α : Type) where
  read : Source → List Token → Outcome α
  ends : List TokenKind

/-- The kinds of tokens that end a whole expression. -/
def closers : List TokenKind := [.rightParen, .comma]

/-- The kinds of tokens that end an operand. -/
def breaks : List TokenKind :=
  [.rightParen, .comma, .inWord, .plus, .minus, .times, .slash, .caret]

/-- An operand. -/
def Part.operand : Part Expr := ⟨parseOperand, breaks⟩

/-- An operand, operators with operands, and perhaps a conversion. -/
def Part.whole : Part Expr := ⟨parseExpression, closers⟩

/-- At least one argument. -/
def Part.args : Part (List Expr) := ⟨parseArgs, [.rightParen]⟩

/-- Nothing follows, or a token of one of these kinds. -/
def Stops (kinds : List TokenKind) (more : List Token) : Prop := ∀ t ∈ more.head?, t.kind ∈ kinds

/-- The kinds of tokens that an operand begins with, apart from signs. -/
def heads : List TokenKind := [.number, .percent, .word, .leftParen]

/-- The kinds of tokens that an operand begins with. -/
def starts : List TokenKind := .plus :: .minus :: heads

/-- The kinds of tokens that an expression consists of. -/
def inside : List TokenKind := .ofWord :: heads ++ breaks ++
  [.dollar, .euro, .pound, .yen, .bitcoin, .glyph]

/-- The first token is of one of these kinds. -/
inductive Begins (first : List TokenKind) : List (TokenKind × String) → Prop
  | intro {kind : TokenKind} {text : String} {behind : List (TokenKind × String)} :
      kind ∈ first → Begins first ((kind, text) :: behind)

/-- Some characters are scanned as tokens of these kinds and texts, of which the part is read. -/
structure SpelledBy (part : Part α) (opens : Bool) (first : List TokenKind) (cs : List Char)
    (R : α → Prop) (shapes : List (TokenKind × String)) : Prop where
  begins : Begins first shapes
  kinds : ∀ shape ∈ shapes, shape.1 ∈ inside
  scans : ∀ rest, Follows rest → Scans opens cs rest shapes
  reads : ∀ src ts more, ts.map shape = shapes → Stops part.ends more →
    ∃ v, R v ∧ part.read src (ts ++ more) = .ok ⟨v, ts.length, []⟩

/-- Some characters are scanned as tokens of which the part is read, the first of them of one of
these kinds. -/
def Spelled (part : Part α) (opens : Bool) (first : List TokenKind) (cs : List Char)
    (R : α → Prop) : Prop :=
  ∃ shapes, SpelledBy part opens first cs R shapes

variable {part : Part Expr} {first first' : List TokenKind}

theorem Begins.mono (h : Begins first shapes) (sub : first ⊆ first') : Begins first' shapes := by
  cases h with
  | intro mem => exact .intro (sub mem)

theorem Begins.append (h : Begins first shapes) : Begins first (shapes ++ shapes') := by
  cases h with
  | intro mem => exact .intro mem

theorem Spelled.means (h : Spelled part opens first cs (Expr.Means · e))
    (same : ∀ s, e.eval s = e'.eval s) : Spelled part opens first cs (Expr.Means · e') := by
  obtain ⟨shapes, h⟩ := h
  refine ⟨shapes, h.begins, h.kinds, h.scans, fun src ts more shaped stops => ?_⟩
  obtain ⟨v, means, read⟩ := h.reads src ts more shaped stops
  exact ⟨v, ⟨fun s => (means.value s).trans (same s), means.fresh⟩, read⟩

theorem Spelled.mono (h : Spelled part opens first cs (Expr.Means · e)) (sub : first ⊆ first') :
    Spelled part opens first' cs (Expr.Means · e) := by
  obtain ⟨shapes, h⟩ := h
  exact ⟨shapes, h.begins.mono sub, h.kinds, h.scans, h.reads⟩

/-- An expression is written where an operand may begin and where it may not, and if it is written
with a digit first, then also with a minus sign in front of that. -/
structure Written (e : Expr) (cs : List Char) : Prop where
  visible : ∃ c ds, cs = c :: ds ∧ isBlank c = false ∧ c ≠ '.'
  leading : Spelled .operand true heads cs (Expr.Means · e)
  behind : Spelled .operand false starts cs (Expr.Means · e)
  negated : startsDigit cs = true →
    Spelled .operand true heads ('-' :: cs) (Expr.Means · (.signed .minus e))

theorem Written.means (h : Written e cs) (same : ∀ s, e.eval s = e'.eval s) : Written e' cs where
  visible := h.visible
  leading := h.leading.means same
  behind := h.behind.means same
  negated digit := (h.negated digit).means fun s => by rw [Expr.eval, Expr.eval, same]

/-! ## Tokens one after another -/

theorem exists_token {kind : TokenKind} {text : String}
    (same : ts.map shape = (kind, text) :: shapes) :
    ∃ t ts', ts = t :: ts' ∧ t.kind = kind ∧ t.text = text ∧ ts'.map shape = shapes := by
  obtain ⟨t, ts', rfl, first, behind⟩ := List.map_eq_cons_iff.mp same
  obtain ⟨kind, text⟩ := Prod.mk.inj first
  exact ⟨t, ts', rfl, kind, text, behind⟩

theorem exists_onlyToken {kind : TokenKind} {text : String} (same : ts.map shape = [(kind, text)]) :
    ∃ t, ts = [t] ∧ t.kind = kind ∧ t.text = text := by
  obtain ⟨t, none, rfl, kind, text, behind⟩ := exists_token same
  obtain rfl := List.map_eq_nil_iff.mp behind
  exact ⟨t, rfl, kind, text⟩

/-- An operand of one token. -/
theorem spelled_token {kind : TokenKind} {text : String} (mem : kind ∈ inside) (head : kind ∈ first)
    (scans : ∀ rest, Follows rest → Scans opens cs rest [(kind, text)])
    (read : ∀ src t more, t.kind = kind → t.text = text → Stops breaks more →
      ∃ e', e'.Means e ∧ parseOperand src (t :: more) = .ok ⟨e', 1, []⟩) :
    Spelled .operand opens first cs (Expr.Means · e) := by
  refine ⟨[(kind, text)], .intro head, List.forall_mem_singleton.mpr mem, scans,
    fun src ts more same stops => ?_⟩
  obtain ⟨t, rfl, kind, text⟩ := exists_onlyToken same
  exact read src t more kind text stops

/-- No operator follows, and no conversion. -/
def EndsChain (more : List Token) : Prop :=
  ∀ t ∈ more.head?, binaryOp? t.kind = none ∧ t.kind ≠ .inWord

theorem endsChain_of_stops (h : Stops closers more) : EndsChain more := by
  intro t mem
  have kind := h t mem
  generalize t.kind = kind at kind
  fin_cases kind <;> exact ⟨rfl, by decide⟩

theorem climb_of_noOperator (least : Nat) (h : ∀ t ∈ more.head?, binaryOp? t.kind = none) :
    climb src least e more = .ok ⟨e, 0, []⟩ := by
  cases more with
  | nil => rw [climb]
  | cons t more => rw [climb, h t rfl]

theorem parseOperators_of_operand (least : Nat) (h : ∀ t ∈ more.head?, binaryOp? t.kind = none)
    (read : parseOperand src (ts ++ more) = .ok ⟨e, ts.length, []⟩) :
    parseOperators src least (ts ++ more) = .ok ⟨e, ts.length, []⟩ := by
  rw [parseOperators_eq, read]
  simp only [Except.bind, List.drop_left, climb_of_noOperator least h]
  rfl

theorem parseExpression_of_operators (ends : EndsChain more)
    (read : parseOperators src 1 (ts ++ more) = .ok ⟨e, ts.length, []⟩) :
    parseExpression src (ts ++ more) = .ok ⟨e, ts.length, []⟩ := by
  have noConversion : startsWith .inWord more = false := by
    cases more with
    | nil => rfl
    | cons t more => simpa [startsWith] using (ends t rfl).2
  rw [parseExpression_eq, read]
  simp [Except.map, withTarget, noConversion]

theorem Spelled.toWhole (h : Spelled .operand opens first cs (Expr.Means · e)) :
    Spelled .whole opens first cs (Expr.Means · e) := by
  obtain ⟨shapes, h⟩ := h
  refine ⟨shapes, h.begins, h.kinds, h.scans, fun src ts more same stops => ?_⟩
  have ends := endsChain_of_stops stops
  have sub : closers ⊆ breaks := by decide
  obtain ⟨v, means, read⟩ := h.reads src ts more same fun t mem => sub (stops t mem)
  exact ⟨v, means, parseExpression_of_operators ends
    (parseOperators_of_operand 1 (fun t mem => (ends t mem).1) read)⟩

/-! ## Operators -/

/-- How an operator is written: as a sign that stands for it. -/
theorem exists_sign {op : BinaryOp} (h : op ≠ .mod) : ∃ c, op.symbol.toList = [c] ∧
    c ∈ ['+', '-', '*', '/', '^'] ∧ binaryOp? (punctuation c) = some op ∧
    punctuation c ∈ breaks := by
  cases op with
  | add => exact ⟨'+', rfl, by decide, rfl, by decide⟩
  | sub => exact ⟨'-', rfl, by decide, rfl, by decide⟩
  | mul => exact ⟨'*', rfl, by decide, rfl, by decide⟩
  | div => exact ⟨'/', rfl, by decide, rfl, by decide⟩
  | mod => exact absurd rfl h
  | pow => exact ⟨'^', rfl, by decide, rfl, by decide⟩

/-- Behind a sign with a blank an operand may begin. -/
theorem Token.Scans.afterSign {c : Char} (mem : c ∈ ['+', '-', '*', '/', '^', '='])
    (h : Scans true cs rest shapes) :
    Scans opens (c :: ' ' :: cs) rest ((punctuation c, String.ofList [c]) :: shapes) := by
  have sub : ['+', '-', '*', '/', '^', '='] ⊆ signs := by decide
  have opened : opensAfter opens [c] = true := by
    fin_cases mem <;> rfl
  have noNumber (cs : List Char) : startsNumber (' ' :: cs) = false := rfl
  refine Scans.append (.sign (sub mem) (by simp) (fun _ _ => noNumber _) (by simp)) ?_
  rw [opened]
  exact Scans.append (.blank rfl) h

theorem parseOperators_of_chain {op : BinaryOp} (op? : binaryOp? u.kind = some op)
    (first : parseOperand src (ts ++ u :: (ts' ++ more)) = .ok ⟨left, ts.length, []⟩)
    (second : parseOperand src (ts' ++ more) = .ok ⟨right, ts'.length, []⟩)
    (ends : ∀ t ∈ more.head?, binaryOp? t.kind = none) :
    parseOperators src 1 (ts ++ u :: (ts' ++ more)) =
      .ok ⟨.binary left op right, (ts ++ u :: ts').length, []⟩ := by
  have close : ¬ op.precedence < 1 := by cases op <;> decide
  have operand := parseOperators_of_operand op.rightPrecedence ends second
  rw [parseOperators_eq, first]
  simp only [Except.bind, List.drop_left, climb_eq op? close, operand, climb_of_noOperator 1 ends]
  simp [Except.map, Parsed.behind, Nat.add_comm]

theorem spelled_chain {op : BinaryOp} (noMod : op ≠ .mod) (l : Written left cs)
    (r : Written right ds) : Spelled .whole true heads
      (cs ++ ' ' :: (op.symbol.toList ++ ' ' :: ds)) (Expr.Means · (.binary left op right)) := by
  obtain ⟨c, symbol, mem, op?, kind⟩ := exists_sign noMod
  have sub : breaks ⊆ inside := by decide
  have sub' : ['+', '-', '*', '/', '^'] ⊆ ['+', '-', '*', '/', '^', '='] := by decide
  obtain ⟨shapes, l⟩ := l.leading
  obtain ⟨shapes', r⟩ := r.leading
  rw [symbol]
  refine ⟨shapes ++ (punctuation c, String.ofList [c]) :: shapes', l.begins.append, ?_, ?_, ?_⟩
  · exact List.forall_mem_append.mpr ⟨l.kinds, List.forall_mem_cons.mpr ⟨sub kind, r.kinds⟩⟩
  · intro rest follows
    refine Scans.append (l.scans _ ?_) (Scans.append (.blank rfl) ?_)
    · exact .sign _ (List.mem_append_left _ (sub' mem))
    · exact .afterSign (sub' mem) (r.scans rest follows)
  · intro src ts more same stops
    obtain ⟨ts, tail, rfl, first, behind⟩ := List.map_eq_append_iff.mp same
    obtain ⟨u, ts', rfl, sign, -, second⟩ := exists_token behind
    have ends := endsChain_of_stops stops
    have stops' : Stops breaks more := fun t mem => (by decide : closers ⊆ breaks) (stops t mem)
    rw [← sign] at op? kind
    have next : Stops breaks (u :: (ts' ++ more)) := by
      rintro t ⟨⟩
      exact kind
    obtain ⟨left', leftMeans, readLeft⟩ := l.reads src ts _ first next
    obtain ⟨right', rightMeans, readRight⟩ := r.reads src ts' more second stops'
    refine ⟨.binary left' op right', ⟨fun s => ?_, rfl⟩, ?_⟩
    · rw [Expr.eval, Expr.eval, leftMeans.value, rightMeans.value]
    · have read := parseOperators_of_chain op? readLeft readRight fun t mem => (ends t mem).1
      rw [← List.cons_append, ← List.append_assoc] at read
      exact parseExpression_of_operators ends read

/-! ## Signs -/

theorem startsNumber_append (h : Written e cs) (noDigit : startsDigit cs = false)
    (rest : List Char) : startsNumber (cs ++ rest) = false := by
  obtain ⟨c, ds, rfl, -, noPoint⟩ := h.visible
  have noDigit : isDigit c = false := noDigit
  simp [startsNumber, noDigit, noPoint]

/-- An operand with a sign that is scanned by itself. -/
theorem spelled_sign {sign : SignOp} (c : Char) (symbol : sign.symbol.toList = [c])
    (h : Spelled .operand true heads cs (Expr.Means · e))
    (apart : c = '-' → opens = true → ∀ rest, startsNumber (cs ++ rest) = false) :
    Spelled .operand opens starts (c :: cs) (Expr.Means · (.signed sign e)) := by
  obtain ⟨shapes, h⟩ := h
  obtain ⟨mem, sign?, kind, opened⟩ : c ∈ ['+', '-'] ∧ signOp? (punctuation c) = some sign ∧
      punctuation c ∈ starts ∧ opensAfter opens [c] = true := by
    cases sign <;> cases symbol <;> exact ⟨by decide, rfl, by decide, rfl⟩
  have sub : starts ⊆ inside := by decide
  have sub' : ['+', '-'] ⊆ signs := by decide
  refine ⟨(punctuation c, String.ofList [c]) :: shapes, .intro kind, ?_, ?_, ?_⟩
  · exact List.forall_mem_cons.mpr ⟨sub kind, h.kinds⟩
  · intro rest follows
    have noSlash : c ≠ '/' := by rintro rfl; simp at mem
    have noStar : c ≠ '*' := by rintro rfl; simp at mem
    refine Scans.append (.sign (sub' mem) (absurd · noSlash) (fun minus opens => ?_)
      (absurd · noStar)) (opened ▸ h.scans rest follows)
    exact apart minus opens rest
  · intro src ts more same stops
    obtain ⟨t, ts', rfl, first, -, behind⟩ := exists_token same
    obtain ⟨e', means, read⟩ := h.reads src ts' more behind stops
    refine ⟨.signed sign e', ⟨fun s => ?_, rfl⟩, ?_⟩
    · cases sign <;> rw [Expr.eval, Expr.eval, means.value]
    · have read : parseOperand src (ts' ++ more) = _ := read
      show parseOperand src (t :: (ts' ++ more)) = _
      rw [parseOperand_eq_signed (first ▸ sign?), read]
      simp [Except.map, Parsed.behind, Nat.add_comm]

/-- What is written with a digit first is written with a minus sign as well. -/
theorem Written.negative (h : Written e cs) (digit : startsDigit cs = true)
    (same : ∀ s, (Expr.signed .minus e).eval s = e'.eval s) : Written e' ('-' :: cs) where
  visible := ⟨'-', cs, rfl, by decide, by decide⟩
  leading := (h.negated digit).means same
  behind :=
    have apart : Spelled .operand false starts ('-' :: cs) (Expr.Means · (.signed .minus e)) :=
      spelled_sign '-' rfl h.leading nofun
    apart.means same
  negated noDigit := nomatch noDigit

/-! ## Parentheses -/

theorem Token.Scans.bracket (h : ∀ rest, Follows rest → Scans true cs rest shapes) :
    Scans opens ('(' :: (cs ++ [')'])) rest
      ((.leftParen, "(") :: (shapes ++ [(.rightParen, ")")])) := by
  have opened : opensAfter opens ['('] = true := rfl
  refine Scans.append (.mark (by decide)) ?_
  rw [opened]
  exact Scans.append (h _ (.closing rest)) (.mark (by decide))

theorem parseOperand_of_group (opens : t.kind = .leftParen) (closes : u.kind = .rightParen)
    (first : startsWith .rightParen (ts ++ u :: more) = false)
    (read : parseExpression src (ts ++ u :: more) = .ok ⟨e, ts.length, []⟩) :
    parseOperand src (t :: (ts ++ u :: more)) = .ok ⟨.group e, (t :: (ts ++ [u])).length, []⟩ := by
  have noSign : signOp? t.kind = none := by rw [opens]; rfl
  have closing : startsWith .rightParen (u :: more) = true := by simp [startsWith, closes]
  rw [parseOperand_eq_primary noSign, parsePrimary_eq, opens]
  simp [first, read, Except.map, parseClosing, closing, Parsed.behind, Nat.add_comm]

theorem startsWith_of_begins {kind : TokenKind} (h : Begins first shapes)
    (same : ts.map shape = shapes) (other : kind ∉ first) (more : List Token) :
    startsWith kind (ts ++ more) = false := by
  cases h with
  | intro mem =>
    obtain ⟨t, ts', rfl, first, -⟩ := exists_token same
    have ne : t.kind ≠ kind := by
      rw [first]
      exact ne_of_mem_of_not_mem mem other
    simpa [startsWith] using ne

theorem spelled_group (h : Spelled .whole true first cs (Expr.Means · e))
    (other : .rightParen ∉ first) :
    Spelled .operand opens heads ('(' :: (cs ++ [')'])) (Expr.Means · e) := by
  obtain ⟨shapes, h⟩ := h
  refine ⟨_, .intro (by decide), ?_, fun rest _ => .bracket h.scans, ?_⟩
  · refine List.forall_mem_cons.mpr ⟨by decide, List.forall_mem_append.mpr ⟨h.kinds, ?_⟩⟩
    exact List.forall_mem_singleton.mpr (by decide)
  · intro src ts more same stops
    obtain ⟨t, tail, rfl, opening, -, behind⟩ := exists_token same
    obtain ⟨ts, closing, rfl, inner, behind⟩ := List.map_eq_append_iff.mp behind
    obtain ⟨u, rfl, closes, -⟩ := exists_onlyToken behind
    have stops : Stops closers (u :: more) := by
      rintro t ⟨⟩
      rw [closes]
      decide
    obtain ⟨e', means, read⟩ := h.reads src ts (u :: more) inner stops
    refine ⟨.group e', ⟨fun s => ?_, rfl⟩, ?_⟩
    · rw [Expr.eval, means.value]
    · rw [List.cons_append, List.append_assoc]
      exact parseOperand_of_group opening closes (startsWith_of_begins h.begins inner other _) read

theorem written_group (h : Spelled .whole true first cs (Expr.Means · e))
    (other : .rightParen ∉ first) : Written e ('(' :: (cs ++ [')'])) where
  visible := ⟨'(', _, rfl, by decide, by decide⟩
  leading := spelled_group h other
  behind := (spelled_group h other).mono (by decide)
  negated := nofun

/-! ## Names -/

/-- A blank begins no word. -/
theorem isBlank_of_startsWord {c : Char} (h : startsWord c = true) : isBlank c = false := by
  have others : ∀ p ∈ blanks, ∀ k ≤ p.2 - p.1, startsWord (Char.ofNat (p.1 + k)) = false := by
    decide +kernel
  by_contra blank
  obtain ⟨p, mem, low, high⟩ := Ranges.has_iff.mp (Bool.not_eq_false _ ▸ blank)
  obtain ⟨k, place⟩ := Nat.exists_eq_add_of_le low
  have other := others p mem k (by omega)
  rw [← place, Char.ofNat_toNat, h] at other
  cases other

theorem visible_of_isWord (h : IsWord cs) : ∃ c ds, cs = c :: ds ∧ isBlank c = false ∧ c ≠ '.' := by
  obtain ⟨c, ds, rfl, starts, -⟩ := h.first
  exact ⟨c, ds, rfl, isBlank_of_startsWord starts, ne_of_startsWord starts (by decide)⟩

theorem startsDigit_of_isWord (h : IsWord cs) (rest : List Char) :
    startsDigit (cs ++ rest) = false := by
  obtain ⟨c, ds, rfl, -, noDigit⟩ := h.first
  exact noDigit

/-- A token that begins neither a sign nor a group nor a percentage of something nor a call. -/
theorem parseOperand_of_simple (kind : t.kind ∈ [.number, .percent, .word])
    (next : ∀ u ∈ more.head?, u.kind ≠ .ofWord ∧ u.kind ≠ .leftParen) :
    parseOperand src (t :: more) = (parseSimple src t more).map (·.behind 1 [] id) := by
  have noSign : signOp? t.kind = none := by
    generalize t.kind = kind at kind
    fin_cases kind <;> rfl
  have noGroup : t.kind ≠ .leftParen := ne_of_mem_of_not_mem kind (by decide)
  rw [parseOperand_eq_primary noSign, parsePrimary_eq]
  cases more with
  | nil => simp [noGroup]
  | cons u more =>
    obtain ⟨noBase, noCall⟩ := next u rfl
    simp [noGroup, noBase, noCall]

theorem next_of_stops (h : Stops breaks more) :
    ∀ u ∈ more.head?, u.kind ≠ .ofWord ∧ u.kind ≠ .leftParen := by
  intro u mem
  have kind := h u mem
  exact ⟨ne_of_mem_of_not_mem kind (by decide), ne_of_mem_of_not_mem kind (by decide)⟩

theorem spelled_name {word : String} (h : IsName word) :
    Spelled .operand opens [.word] word.toList (Expr.Means · (.name word)) := by
  have scans (rest : List Char) (follows : Follows rest) :
      Scans opens word.toList rest [(.word, word)] := h.1.scansText opens follows.endsWord
  refine spelled_token (by decide) (by decide) scans
    fun src t more kind text stops => ⟨.name word, ⟨fun _ => rfl, rfl⟩, ?_⟩
  rw [parseOperand_of_simple (by rw [kind]; decide) (next_of_stops stops)]
  simp [parseSimple, kind, text, h.2, TokenKind.isSymbol, Except.map, Parsed.behind]

theorem written_name {word : String} (h : IsName word) : Written (.name word) word.toList where
  visible := visible_of_isWord h.1
  leading := (spelled_name h).mono (by decide)
  behind := (spelled_name h).mono (by decide)
  negated digit := by
    have noDigit := startsDigit_of_isWord h.1 []
    rw [List.append_nil, digit] at noDigit
    cases noDigit

/-! ## Conversions -/

/-- What may be converted to is scanned as one token. -/
theorem scans_target {target : String} (h : IsTarget target) : ∃ kind ∈ inside,
    (kind == .word || kind.isSymbol) = true ∧ ∀ opens rest, EndsWord rest →
      Scans opens target.toList rest [(kind, target)] := by
  rcases h with word | ⟨c, glyph, rfl⟩
  · exact ⟨.word, by decide, rfl, fun opens rest ends => word.scansText opens ends⟩
  · refine ⟨glyphKind c, ?_, ?_, fun opens rest _ => ?_⟩
    · unfold glyphKind
      split <;> decide
    · unfold glyphKind
      split <;> rfl
    · rw [String.toList_ofList]
      exact .glyph glyph

/-- Behind `in` and a blank stands what is converted to. -/
theorem scans_into {kind : TokenKind} {target : String}
    (h : ∀ opens rest, EndsWord rest → Scans opens ds rest [(kind, target)])
    (ends : EndsWord rest) :
    Scans opens ('i' :: 'n' :: ' ' :: ds) rest [(.inWord, "in"), (kind, target)] := by
  have noWord (cs : List Char) : leadingWord (' ' :: cs) = [] :=
    List.takeWhile_cons_of_neg (by decide +kernel)
  exact Scans.append (scans_in (noWord _)) (Scans.append (.blank rfl) (h _ _ ends))

theorem parseExpression_of_conversion (into : u.kind = .inWord)
    (named : (t.kind == .word || t.kind.isSymbol) = true)
    (read : parseOperand src (ts ++ u :: t :: more) = .ok ⟨e, ts.length, []⟩) :
    parseExpression src (ts ++ u :: t :: more) =
      .ok ⟨.conversion e t.text, (ts ++ [u, t]).length, []⟩ := by
  have noOperator : ∀ v ∈ (u :: t :: more).head?, binaryOp? v.kind = none := by
    rintro v ⟨⟩
    rw [into]
    rfl
  rw [parseExpression_eq, parseOperators_of_operand 1 noOperator read]
  simp [Except.map, withTarget, startsWith, into, parseTarget, named, Parsed.behind]

theorem spelled_conversion {target : String} (h : Written e cs) (into : IsTarget target) :
    Spelled .whole true heads (cs ++ ' ' :: 'i' :: 'n' :: ' ' :: target.toList)
      (Expr.Means · (.conversion e target)) := by
  obtain ⟨shapes, h⟩ := h.leading
  obtain ⟨kind, mem, named, scans⟩ := scans_target into
  refine ⟨shapes ++ [(.inWord, "in"), (kind, target)], h.begins.append, ?_, ?_, ?_⟩
  · have inWord : TokenKind.inWord ∈ inside := by decide
    exact List.forall_mem_append.mpr ⟨h.kinds, by simp [inWord, mem]⟩
  · intro rest follows
    refine Scans.append (h.scans _ (.inWord _)) (Scans.append (.blank rfl) ?_)
    exact scans_into scans follows.endsWord
  · intro src ts more same stops
    obtain ⟨ts, tail, rfl, first, behind⟩ := List.map_eq_append_iff.mp same
    obtain ⟨u, tail, rfl, inWord, -, behind⟩ := exists_token behind
    obtain ⟨t, rfl, kind, text⟩ := exists_onlyToken behind
    have stops : Stops breaks (u :: t :: more) := by
      rintro v ⟨⟩
      rw [inWord]
      decide
    obtain ⟨e', means, read⟩ := h.reads src ts (u :: t :: more) first stops
    refine ⟨.conversion e' target, ⟨fun s => ?_, rfl⟩, ?_⟩
    · rw [Expr.eval, Expr.eval, means.value]
    · have named : (t.kind == .word || t.kind.isSymbol) = true := by rw [kind, named]
      rw [List.append_assoc]
      exact text ▸ parseExpression_of_conversion inWord named read

/-! ## Calls -/

/-- Arguments have the values of some others. -/
def SameArgs (es es' : List Expr) : Prop := ∀ s, evalArgs s es' = evalArgs s es

theorem evalArgs_cons {es es' : List Expr} (first : e'.Means e) (others : SameArgs es es') :
    SameArgs (e :: es) (e' :: es') := by
  intro s
  rw [evalArgs, evalArgs, first.value, others]

theorem parseArgs_single (stops : Stops [.rightParen] more)
    (read : parseExpression src (ts ++ more) = .ok ⟨e, ts.length, []⟩) :
    parseArgs src (ts ++ more) = .ok ⟨[e], ts.length, []⟩ := by
  rw [parseArgs_eq, read]
  cases more with
  | nil => simp [Except.bind, parseMoreArgs, Except.map, Parsed.behind]
  | cons u more =>
    have kind : u.kind = .rightParen := List.mem_singleton.mp (stops u rfl)
    simp [Except.bind, parseMoreArgs, kind, Except.map, Parsed.behind]

theorem parseArgs_cons {es : List Expr} (comma : u.kind = .comma)
    (first : parseExpression src (ts ++ u :: (ts' ++ more)) = .ok ⟨e, ts.length, []⟩)
    (others : parseArgs src (ts' ++ more) = .ok ⟨es, ts'.length, []⟩) :
    parseArgs src (ts ++ u :: (ts' ++ more)) = .ok ⟨e :: es, (ts ++ u :: ts').length, []⟩ := by
  rw [parseArgs_eq, first]
  simp [Except.bind, parseMoreArgs, comma, others, Except.map, Parsed.behind, Nat.add_comm]

/-- Arguments are written with commas and blanks between them. -/
theorem spelled_args {es : List Expr} {texts : List (List Char)}
    (h : List.Forall₂ (fun e cs => Spelled .whole true heads cs (Expr.Means · e)) es texts)
    (nonempty : es ≠ []) :
    Spelled .args true heads ([',', ' '].intercalate texts) (SameArgs es) := by
  induction h with
  | nil => exact absurd rfl nonempty
  | @cons e cs es texts first others ih =>
    obtain ⟨shapes, h⟩ := first
    cases others with
    | nil =>
      rw [List.intercalate_singleton]
      refine ⟨shapes, h.begins, h.kinds, h.scans, fun src ts more same stops => ?_⟩
      have sub : [.rightParen] ⊆ closers := by decide
      obtain ⟨e', means, read⟩ := h.reads src ts more same fun t mem => sub (stops t mem)
      exact ⟨[e'], evalArgs_cons means fun _ => rfl, parseArgs_single stops read⟩
    | cons second others =>
      obtain ⟨shapes', ih⟩ := ih (List.cons_ne_nil _ _)
      have comma : TokenKind.comma ∈ inside := by decide
      rw [List.intercalate_cons_cons, List.append_assoc]
      refine ⟨shapes ++ (.comma, ",") :: shapes', h.begins.append, ?_, ?_, ?_⟩
      · exact List.forall_mem_append.mpr ⟨h.kinds, List.forall_mem_cons.mpr ⟨comma, ih.kinds⟩⟩
      · intro rest follows
        refine Scans.append (h.scans _ (.comma _)) ?_
        exact Scans.append (.mark (by decide)) (Scans.append (.blank rfl) (ih.scans rest follows))
      · intro src ts more same stops
        obtain ⟨ts, tail, rfl, first, behind⟩ := List.map_eq_append_iff.mp same
        obtain ⟨u, ts', rfl, kind, -, second⟩ := exists_token behind
        have next : Stops closers (u :: (ts' ++ more)) := by
          rintro t ⟨⟩
          rw [kind]
          decide
        obtain ⟨e', means, read⟩ := h.reads src ts _ first next
        obtain ⟨es', same, readOthers⟩ := ih.reads src ts' more second stops
        refine ⟨e' :: es', evalArgs_cons means same, ?_⟩
        rw [List.append_assoc]
        exact parseArgs_cons kind read readOthers

theorem parsePrimary_call (word : t.kind = .word) (opens : u.kind = .leftParen) :
    parseOperand src (t :: u :: more) = (parseCall src t.text more).map (·.behind 2 [] id) := by
  have noSign : signOp? t.kind = none := by rw [word]; rfl
  rw [parseOperand_eq_primary noSign, parsePrimary_eq]
  cases call : parseCall src t.text more <;>
    simp [word, opens, call, Except.map, Parsed.behind, ← Nat.add_assoc]

theorem parseCall_of_args {function : String} {es : List Expr} (closes : u.kind = .rightParen)
    (first : startsWith .rightParen (ts ++ u :: more) = false)
    (read : parseArgs src (ts ++ u :: more) = .ok ⟨es, ts.length, []⟩) :
    parseCall src function (ts ++ u :: more) = .ok ⟨.call function es, ts.length + 1, []⟩ := by
  have closing : startsWith .rightParen (u :: more) = true := by simp [startsWith, closes]
  rw [parseCall_eq, if_neg (by simp [first]), read]
  simp [Except.map, parseClosing, closing, Parsed.behind]

theorem scans_name {function : String} (word : IsWord function.toList) (rest : List Char) :
    Scans opens function.toList ('(' :: rest) [(.word, function)] :=
  word.scansText opens (endsWord_opening rest)

/-- A call without arguments. -/
theorem spelled_call_nil {function : String} (word : IsWord function.toList) :
    Spelled .operand opens [.word] (function.toList ++ ['(', ')'])
      (Expr.Means · (.call function [])) := by
  have kinds : TokenKind.word ∈ inside ∧ TokenKind.leftParen ∈ inside ∧
      TokenKind.rightParen ∈ inside := by decide
  have brackets : '(' ∈ ['+', '^', '(', ')', '=', ','] ∧ ')' ∈ ['+', '^', '(', ')', '=', ','] := by
    decide
  refine ⟨[(.word, function), (.leftParen, "("), (.rightParen, ")")], .intro (by decide),
    by simp [kinds], fun rest _ => ?_, fun src ts more same _ => ?_⟩
  · exact Scans.append (scans_name word _) (Scans.append (.mark brackets.1) (.mark brackets.2))
  · obtain ⟨t, tail, rfl, name, text, behind⟩ := exists_token same
    obtain ⟨u, tail, rfl, opening, -, behind⟩ := exists_token behind
    obtain ⟨v, rfl, closing, -⟩ := exists_onlyToken behind
    refine ⟨.call function [], ⟨fun _ => rfl, rfl⟩, ?_⟩
    show parseOperand src (t :: u :: v :: more) = _
    rw [parsePrimary_call name opening, parseCall_eq, text]
    simp [startsWith, closing, Except.map, Parsed.behind]

/-- A call with arguments that are written as they are read. -/
theorem spelled_call_args {function : String} {es : List Expr} (word : IsWord function.toList)
    (args : Spelled .args true heads cs (SameArgs es)) :
    Spelled .operand opens [.word] (function.toList ++ '(' :: (cs ++ [')']))
      (Expr.Means · (.call function es)) := by
  obtain ⟨shapes, h⟩ := args
  have kinds : TokenKind.word ∈ inside ∧ TokenKind.leftParen ∈ inside ∧
      TokenKind.rightParen ∈ inside := by decide
  refine ⟨(.word, function) :: (.leftParen, "(") :: (shapes ++ [(.rightParen, ")")]),
    .intro (by decide), ?_, fun rest _ => ?_, fun src ts more same _ => ?_⟩
  · simp only [List.forall_mem_cons, List.forall_mem_append]
    exact ⟨kinds.1, kinds.2.1, h.kinds, kinds.2.2, nofun⟩
  · exact Scans.append (scans_name word _) (.bracket h.scans)
  · obtain ⟨t, tail, rfl, name, text, behind⟩ := exists_token same
    obtain ⟨u, tail, rfl, opening, -, behind⟩ := exists_token behind
    obtain ⟨ts, closing, rfl, inner, behind⟩ := List.map_eq_append_iff.mp behind
    obtain ⟨v, rfl, closes, -⟩ := exists_onlyToken behind
    have stops : Stops [.rightParen] (v :: more) := by
      rintro t ⟨⟩
      exact List.mem_singleton.mpr closes
    obtain ⟨es', same, read⟩ := h.reads src ts (v :: more) inner stops
    have other : TokenKind.rightParen ∉ heads := by decide
    have first := startsWith_of_begins h.begins inner other (v :: more)
    refine ⟨.call function es', ⟨fun s => ?_, rfl⟩, ?_⟩
    · rw [Expr.eval, Expr.eval, same]
    · rw [List.cons_append, List.cons_append, List.append_assoc]
      show parseOperand src (t :: u :: (ts ++ v :: more)) = _
      rw [parsePrimary_call name opening, parseCall_of_args closes first read, text]
      simp [Except.map, Parsed.behind]
      omega

theorem spelled_call {function : String} {es : List Expr} {texts : List (List Char)}
    (word : IsWord function.toList)
    (h : List.Forall₂ (fun e cs => Spelled .whole true heads cs (Expr.Means · e)) es texts) :
    Spelled .operand opens [.word]
      (function.toList ++ '(' :: ([',', ' '].intercalate texts ++ [')']))
      (Expr.Means · (.call function es)) := by
  cases h with
  | nil => exact spelled_call_nil word
  | cons first others =>
    exact spelled_call_args word (spelled_args (.cons first others) (List.cons_ne_nil _ _))

theorem written_call {function : String} {es : List Expr} {texts : List (List Char)}
    (word : IsWord function.toList)
    (h : List.Forall₂ (fun e cs => Spelled .whole true heads cs (Expr.Means · e)) es texts) :
    Written (.call function es)
      (function.toList ++ '(' :: ([',', ' '].intercalate texts ++ [')'])) where
  visible := by
    obtain ⟨c, ds, eq, visible⟩ := visible_of_isWord word
    exact ⟨c, ds ++ _, by rw [eq, List.cons_append], visible⟩
  leading := (spelled_call word h).mono (by decide)
  behind := (spelled_call word h).mono (by decide)
  negated digit := by
    rw [startsDigit_of_isWord word] at digit
    cases digit

/-! ## Percentages -/

theorem parseOperand_of_percentOf {x : Float} (percent : t.kind = .percent)
    (ofWord : u.kind = .ofWord) (amount : amountOf t.text = .ok x)
    (read : parseOperand src (ts ++ more) = .ok ⟨e, ts.length, []⟩) :
    parseOperand src (t :: u :: (ts ++ more)) =
      .ok ⟨.percentOf (x / 100) t.text e, (t :: u :: ts).length, []⟩ := by
  have noSign : signOp? t.kind = none := by rw [percent]; rfl
  rw [parseOperand_eq_primary noSign, parsePrimary_eq]
  simp [percent, ofWord, percentOf_eq, amount, read, Except.bind, Except.map, Parsed.behind,
    Nat.add_comm]

theorem spelled_percentOf {x : Float} {raw : String}
    (scans : ∀ rest, Scans opens cs rest [(.percent, String.ofList cs)])
    (amount : amountOf (String.ofList cs) = .ok x)
    (base : Spelled .operand false starts ds (Expr.Means · e)) :
    Spelled .operand opens heads (cs ++ ' ' :: 'o' :: 'f' :: ' ' :: ds)
      (Expr.Means · (.percentOf (x / 100) raw e)) := by
  obtain ⟨shapes, h⟩ := base
  have kinds : TokenKind.percent ∈ inside ∧ TokenKind.ofWord ∈ inside := by decide
  refine ⟨(.percent, String.ofList cs) :: (.ofWord, "of") :: shapes, .intro (by decide), ?_, ?_, ?_⟩
  · exact List.forall_mem_cons.mpr ⟨kinds.1, List.forall_mem_cons.mpr ⟨kinds.2, h.kinds⟩⟩
  · intro rest follows
    have noWord (cs : List Char) : leadingWord (' ' :: cs) = [] :=
      List.takeWhile_cons_of_neg (by decide +kernel)
    refine Scans.append (scans _) (Scans.append (.blank rfl) ?_)
    refine Scans.append (scans_of (noWord _)) (Scans.append (.blank rfl) ?_)
    exact h.scans rest follows
  · intro src ts more same stops
    obtain ⟨t, tail, rfl, percent, text, behind⟩ := exists_token same
    obtain ⟨u, ts, rfl, ofWord, -, behind⟩ := exists_token behind
    obtain ⟨e', means, read⟩ := h.reads src ts more behind stops
    refine ⟨.percentOf (x / 100) t.text e', ⟨fun s => ?_, rfl⟩, ?_⟩
    · rw [Expr.eval, Expr.eval, means.value]
    · exact parseOperand_of_percentOf percent ofWord (text ▸ amount) read

theorem spelled_percent {x : Float} {raw : String}
    (scans : ∀ rest, Scans opens cs rest [(.percent, String.ofList cs)])
    (amount : amountOf (String.ofList cs) = .ok x) :
    Spelled .operand opens heads cs (Expr.Means · (.literal (x / 100) .percent raw)) := by
  refine spelled_token (by decide) (by decide) (fun rest _ => scans rest)
    fun src t more percent text stops =>
      ⟨.literal (x / 100) .percent t.text, ⟨fun _ => rfl, rfl⟩, ?_⟩
  rw [parseOperand_of_simple (by rw [percent]; decide) (next_of_stops stops)]
  simp [parseSimple, percent, parsePercent_eq, text, amount, Except.bind, Except.map,
    Parsed.behind]

end LineCalc
