import LineCalc.Proofs.Expr.Written

/-!
# Trees as they are written

The text of a tree is read as a tree with the same value, if the tree is that of a text without
problems and is plain: it has no remainders, and its amounts are finite, not the negative zero and
not in pints.

Results:
1. `written_amount`, `written_percent`, `written_percentOf`: amounts and percentages, each with its
   sign and without.
2. `rendered_of_fromText`: all expressions of texts.
-/

namespace LineCalc

open LineCalc.Decimal LineCalc.Parser LineCalc.Token LineCalc.Text

variable {opens : Bool} {cs ds : List Char} {e e' : Expr} {x : Float} {d : Denomination}
  {raw : String} {s : Spelling}

/-! ## Plain trees -/

/-- An amount is written so that it is read again: a percentage by its hundredfold. -/
def isPlainAmount (x : Float) : Denomination → Bool
  | .percent => isWritable (x * 100)
  | d => isWritable x && d != .unit .pint

namespace Expr

mutual

/-- There is no remainder in an expression, and all amounts are plain. -/
def isPlain : Expr → Bool
  | literal x d _ => isPlainAmount x d
  | name _ | resumeConversion _ => true
  | binary left op right => left.isPlain && op != .mod && right.isPlain
  | signed _ e | conversion e _ | group e => e.isPlain
  | percentOf x _ e => isPlainAmount x .percent && e.isPlain
  | call _ args => allPlain args
  | resume op e => op != .mod && e.isPlain

/-- Some expressions are plain. -/
def allPlain : List Expr → Bool
  | [] => true
  | e :: es => e.isPlain && allPlain es

end

end Expr

/-- There is no remainder in a statement, and all amounts are plain. -/
def Statement.isPlain : Statement → Bool
  | .empty | .comment _ => true
  | .expr e | .assign _ e => e.isPlain

/-! ## Amounts without sign -/

theorem Value.share_neg (fraction : Float) (v : Value) :
    v.share (-fraction) = (v.share fraction).negate := by
  have share (v : Value) : (v.withAmount (v.magnitude * -fraction)).checked =
      (v.withAmount (v.magnitude * fraction)).checked.negate := by
    rw [mul_neg_double, withAmount_neg, checked_negate]
  cases v with
  | error p => rfl
  | empty => exact share _
  | amount n d => exact share _

/-- What is written behind an amount. -/
def denominationChars (d : Denomination) : List Char :=
  if d = .plain then [] else ' ' :: d.code.toList

/-- The denomination of an amount is read from what is written behind it. -/
def IsReadable (d : Denomination) : Prop :=
  d = .plain ∨ d ∈ Denomination.listed ∧ d ≠ .unit .pint

theorem suffixOf_of_stops {src : Source} {t : Token} {more : List Token}
    (amount : amountOf t.text = .ok x) (stops : Stops breaks more) :
    parseNumber src t more = .ok ⟨.literal x .plain t.text, 0, []⟩ := by
  rw [parseNumber_eq, amount]
  cases more with
  | nil => rfl
  | cons u more =>
    have none : suffixOf u more = none := by
      have kind := stops u rfl
      rw [suffixOf]
      generalize u.kind = kind at kind
      fin_cases kind <;> rfl
    simp [Except.bind, none]

theorem suffixOf_of_code {src : Source} {t u : Token} {more : List Token}
    (amount : amountOf t.text = .ok x) (word : u.kind = .word)
    (named : Denomination.ofName? u.text = some d) (stops : Stops breaks more) :
    parseNumber src t (u :: more) = .ok ⟨.literal x d (rawBetween src t u), 1, []⟩ := by
  have noCall : startsWith .leftParen more = false := by
    cases more with
    | nil => rfl
    | cons v more => simpa [startsWith] using (next_of_stops stops v rfl).2
  rw [parseNumber_eq, amount]
  simp [Except.bind, suffixOf, word, noCall, named]

theorem spelled_amount (readable : IsReadable d)
    (scans : ∀ rest, EndsNumber rest → rest.head? ≠ some '%' →
      Scans opens cs rest [(.number, String.ofList cs)])
    (amount : amountOf (String.ofList cs) = .ok x) :
    Spelled .operand opens heads (cs ++ denominationChars d) (Expr.Means · (.literal x d raw)) := by
  have kinds : TokenKind.number ∈ inside ∧ TokenKind.word ∈ inside := by decide
  rcases readable with rfl | ⟨listed, noPint⟩
  · rw [denominationChars, if_pos rfl, List.append_nil]
    refine spelled_token kinds.1 (by decide)
      (fun rest follows => scans rest follows.endsNumber.1 follows.endsNumber.2)
      fun src t more number text stops => ⟨.literal x .plain t.text, ⟨fun _ => rfl, rfl⟩, ?_⟩
    rw [parseOperand_of_simple (by rw [number]; decide) (next_of_stops stops), parseSimple,
      if_pos (by rw [number]; rfl), suffixOf_of_stops (text ▸ amount) stops]
    rfl
  · rw [denominationChars, if_neg (Denomination.ne_of_mem_listed listed).1]
    refine ⟨[(.number, String.ofList cs), (.word, d.code)], .intro (by decide), by simp [kinds],
      fun rest follows => ?_, fun src ts more same stops => ?_⟩
    · have code := (Denomination.isWord_code listed).scansText (opensAfter opens cs)
        follows.endsWord
      refine Scans.append (scans _ ?_ (by simp)) (Scans.append (.blank rfl) code)
      rintro c cs ⟨⟩
      exact .inl rfl
    · obtain ⟨t, tail, rfl, number, text, behind⟩ := exists_token same
      obtain ⟨u, rfl, word, code⟩ := exists_onlyToken behind
      refine ⟨.literal x d (rawBetween src t u), ⟨fun _ => rfl, rfl⟩, ?_⟩
      have named := code ▸ Denomination.ofName?_code listed noPint
      have next : ∀ v ∈ (u :: more).head?, v.kind ≠ .ofWord ∧ v.kind ≠ .leftParen := by
        rintro v ⟨⟩
        rw [word]
        decide
      show parseOperand src (t :: u :: more) = _
      rw [parseOperand_of_simple (by rw [number]; decide) next, parseSimple,
        if_pos (by rw [number]; rfl), suffixOf_of_code (text ▸ amount) word named stops]
      rfl

/-! ## Amounts with their signs -/

theorem isBlank_of_decimal {c : Char} (digit : c.isDigit = true) : isBlank c = false := by
  have others : ∀ p ∈ blanks, p.2 < 48 ∨ 57 < p.1 := by decide
  simp only [Char.isDigit, Bool.and_eq_true, decide_eq_true_eq] at digit
  have low : 48 ≤ c.toNat := digit.1
  have high : c.toNat ≤ 57 := digit.2
  by_contra blank
  obtain ⟨p, mem, first, last⟩ := Ranges.has_iff.mp (Bool.not_eq_false _ ▸ blank)
  have other := others p mem
  omega

/-- What begins with a digit is written with and without a sign. -/
theorem written_of_digits (unsigned : ∀ opens, Spelled .operand opens heads
      (s.chars ++ ds) (Expr.Means · e))
    (signed : Spelled .operand true heads ('-' :: (s.chars ++ ds)) (Expr.Means · e'))
    (same : ∀ scope, e'.eval scope = (Expr.signed .minus e).eval scope) :
    Written e (s.chars ++ ds) ∧ Written e' ('-' :: (s.chars ++ ds)) := by
  obtain ⟨d, row, eq, digit⟩ := exists_digit_chars s
  have visible : ∃ c cs, s.chars ++ ds = c :: cs ∧ isBlank c = false ∧ c ≠ '.' := by
    refine ⟨d, row ++ ds, by rw [eq, List.cons_append], isBlank_of_decimal digit, ?_⟩
    rintro rfl
    cases digit
  have first : startsDigit (s.chars ++ ds) = true := by
    rw [eq]
    exact isDigit_of_decimal digit
  have positive : Written e (s.chars ++ ds) :=
    ⟨visible, unsigned true, (unsigned false).mono (by decide), fun _ => signed.means same⟩
  exact ⟨positive, positive.negative first fun scope => (same scope).symm⟩

theorem eval_literal_neg (scope : Scope) : (Expr.literal (-x) d raw).eval scope =
    (Expr.signed .minus (.literal x d raw)).eval scope := by
  rw [Expr.eval, Expr.eval, Expr.eval]
  rfl

theorem written_amount (readable : IsReadable d) :
    Written (.literal s.amount d raw) (s.chars ++ denominationChars d) ∧
      Written (.literal (-s.amount) d raw) ('-' :: (s.chars ++ denominationChars d)) := by
  have none : ([] : List Char) = [] ∨ [] = ['%'] := .inl rfl
  obtain ⟨unsigned, signed⟩ := amountOf_spelling s none
  rw [List.append_nil] at unsigned signed
  refine written_of_digits (fun opens => ?_) ?_ eval_literal_neg
  · exact spelled_amount readable (fun _ ends noPercent => (scans_number s opens ends noPercent).1)
      unsigned
  · exact spelled_amount readable (fun _ ends noPercent => (scans_number s true ends noPercent).2)
      signed

theorem written_percent : Written (.literal (s.amount / 100) .percent raw) (s.chars ++ ['%']) ∧
    Written (.literal (-(s.amount / 100)) .percent raw) ('-' :: (s.chars ++ ['%'])) := by
  obtain ⟨unsigned, signed⟩ := amountOf_spelling s (.inr rfl)
  refine written_of_digits (fun opens => ?_) ?_ eval_literal_neg
  · exact spelled_percent (fun _ => (scans_percent s opens).1) unsigned
  · rw [← neg_div_double]
    exact spelled_percent (fun _ => (scans_percent s true).2) signed

theorem eval_percentOf_neg (scope : Scope) : (Expr.percentOf (-x) raw e).eval scope =
    (Expr.signed .minus (.percentOf x raw e)).eval scope := by
  rw [Expr.eval, Expr.eval, Expr.eval]
  cases e.eval scope with
  | error f => rfl
  | ok v => exact congrArg Except.ok (Value.share_neg x v)

/-- What is written between a percentage and what it is of. -/
def ofChars : List Char := [' ', 'o', 'f', ' ']

theorem written_percentOf (base : Written e ds) :
    Written (.percentOf (s.amount / 100) raw e) (s.chars ++ ('%' :: (ofChars ++ ds))) ∧
      Written (.percentOf (-(s.amount / 100)) raw e)
        ('-' :: (s.chars ++ ('%' :: (ofChars ++ ds)))) := by
  obtain ⟨unsigned, signed⟩ := amountOf_spelling s (.inr rfl)
  refine written_of_digits (fun opens => ?_) ?_ eval_percentOf_neg
  · have text : s.chars ++ ('%' :: (ofChars ++ ds)) = s.chars ++ ['%'] ++ (ofChars ++ ds) := by
      rw [List.append_assoc, List.singleton_append]
    rw [text]
    exact spelled_percentOf (fun _ => (scans_percent s opens).1) unsigned base.behind
  · have text : '-' :: (s.chars ++ ('%' :: (ofChars ++ ds))) =
        '-' :: (s.chars ++ ['%']) ++ (ofChars ++ ds) := by
      rw [List.cons_append, List.append_assoc, List.singleton_append]
    rw [text, ← neg_div_double]
    exact spelled_percentOf (fun _ => (scans_percent s true).2) signed base.behind

/-! ## The texts of amounts -/

theorem literalText_eq (readable : IsReadable d) (text : amountText x = .ok (String.ofList cs)) :
    literalText x d = .ok (String.ofList (cs ++ denominationChars d)) := by
  rcases readable with rfl | ⟨listed, -⟩
  · rw [literalText, text, denominationChars, if_pos rfl, List.append_nil]
  · obtain ⟨notPlain, notPercent⟩ := Denomination.ne_of_mem_listed listed
    have written : literalText x d = (amountText x).map fun s => s!"{s} {d.code}" := by
      cases d <;> first | exact absurd rfl notPlain | exact absurd rfl notPercent | rfl
    rw [written, text, denominationChars, if_neg notPlain]
    refine congrArg Except.ok ?_
    rw [← String.toList_inj]
    simp [toString]

theorem exists_percentText (plain : isPlainAmount (x / 100) .percent = true) : ∃ s : Spelling,
    x / 100 = s.amount / 100 ∧
        literalText (x / 100) .percent = .ok (String.ofList (s.chars ++ ['%'])) ∨
      x / 100 = -(s.amount / 100) ∧
        literalText (x / 100) .percent = .ok (String.ofList ('-' :: (s.chars ++ ['%']))) := by
  have writable : isWritable (x / 100 * 100) = true := plain
  obtain ⟨s, spelled⟩ := amountText_spelling writable
  have finite : (x / 100 * 100).isFinite = true := by
    obtain ⟨b, exact, -⟩ := Option.any_eq_true _ _ |>.mp writable
    exact isFinite_of_binary? exact
  have again := hundredth_again x finite
  have percentText {cs : List Char} (text : amountText (x / 100 * 100) = .ok (String.ofList cs)) :
      literalText (x / 100) .percent = .ok (String.ofList (cs ++ ['%'])) := by
    rw [literalText, text]
    refine congrArg Except.ok ?_
    rw [← String.toList_inj]
    simp
  rcases spelled with ⟨amount, text⟩ | ⟨amount, text⟩
  · exact ⟨s, .inl ⟨by rw [← amount, again], percentText text⟩⟩
  · exact ⟨s, .inr ⟨by rw [← neg_div_double, ← amount, again], percentText text⟩⟩

/-! ## The texts of trees -/

namespace Expr

variable {left right : Expr} {op : BinaryOp} {text textL textR : String}

theorem render_binary (renderL : left.render = .ok textL) (renderR : right.render = .ok textR) :
    (binary left op right).render = .ok s!"({textL} {op.symbol} {textR})" := by
  change (left.render.bind fun l => right.render.bind fun r => _) = _
  rw [renderL, renderR]
  rfl

theorem render_signed {sign : SignOp} (render : e.render = .ok text) :
    (signed sign e).render = .ok s!"({sign.symbol}{text})" := by
  change e.render.bind _ = _
  rw [render]
  rfl

theorem render_percentOf {percent : String} (literal : literalText x .percent = .ok percent)
    (render : e.render = .ok text) :
    (percentOf x raw e).render = .ok s!"{percent} of {text}" := by
  change ((literalText x .percent).bind fun p => e.render.bind fun t => _) = _
  rw [literal, render]
  rfl

theorem render_conversion {target : String} (render : e.render = .ok text) :
    (conversion e target).render = .ok s!"{text} in {target}" := by
  change e.render.bind _ = _
  rw [render]
  rfl

theorem render_group (render : e.render = .ok text) : (group e).render = .ok s!"({text})" := by
  change e.render.bind _ = _
  rw [render]
  rfl

theorem renderAll_cons {es : List Expr} {texts : List String} (render : e.render = .ok text)
    (others : renderAll es = .ok texts) : renderAll (e :: es) = .ok (text :: texts) := by
  change (e.render.bind fun t => (renderAll es).bind fun ts => _) = _
  rw [render, others]
  rfl

theorem render_call {function : String} {args : List Expr} {texts : List String}
    (render : renderAll args = .ok texts) : (call function args).render =
      .ok (function ++ "(" ++ ", ".intercalate texts ++ ")") := by
  change (renderAll args).bind _ = _
  rw [render]
  rfl

end Expr

/-- The text does not begin with a blank. -/
def StartsVisible (cs : List Char) : Prop := ∃ c ds, cs = c :: ds ∧ isBlank c = false

theorem Written.startsVisible (h : Written e cs) (ds : List Char) : StartsVisible (cs ++ ds) := by
  obtain ⟨c, cs, rfl, visible, -⟩ := h.visible
  exact ⟨c, cs ++ ds, rfl, visible⟩

/-- An expression has a text of which its value is read; what is no conversion is written as an
operand. -/
def Rendered (whole : Bool) (e : Expr) : Prop :=
  ∃ text, e.render = .ok text ∧ StartsVisible text.toList ∧
    Spelled .whole true heads text.toList (Expr.Means · e) ∧ (whole = false → Written e text.toList)

theorem Rendered.of_written {whole : Bool} {text : String} (render : e.render = .ok text)
    (h : Written e text.toList) : Rendered whole e :=
  ⟨text, render, List.append_nil text.toList ▸ h.startsVisible [], h.leading.toWhole, fun _ => h⟩

theorem rendered_amount {whole : Bool} (mem : d = .plain ∨ d ∈ Denomination.listed)
    (plain : isPlainAmount x d = true) : Rendered whole (.literal x d raw) := by
  obtain ⟨writable, readable⟩ : isWritable x = true ∧ IsReadable d := by
    rcases mem with rfl | listed
    · exact ⟨by simpa [isPlainAmount] using plain, .inl rfl⟩
    · obtain ⟨-, notPercent⟩ := Denomination.ne_of_mem_listed listed
      have eq : isPlainAmount x d = (isWritable x && d != .unit .pint) := by
        cases d <;> first | rfl | exact absurd rfl notPercent
      rw [eq, Bool.and_eq_true] at plain
      exact ⟨plain.1, .inr ⟨listed, by simpa using plain.2⟩⟩
  obtain ⟨s, ⟨rfl, text⟩ | ⟨rfl, text⟩⟩ := amountText_spelling writable
  · refine .of_written (literalText_eq readable text) ?_
    rw [String.toList_ofList]
    exact (written_amount readable).1
  · refine .of_written (literalText_eq readable text) ?_
    rw [String.toList_ofList]
    exact (written_amount readable).2

theorem rendered_percent {whole : Bool} (plain : isPlainAmount (x / 100) .percent = true) :
    Rendered whole (.literal (x / 100) .percent raw) := by
  obtain ⟨s, ⟨eq, text⟩ | ⟨eq, text⟩⟩ := exists_percentText plain
  · refine .of_written text ?_
    rw [String.toList_ofList, eq]
    exact written_percent.1
  · refine .of_written text ?_
    rw [String.toList_ofList, eq]
    exact written_percent.2

theorem rendered_percentOf {whole : Bool} (plain : isPlainAmount (x / 100) .percent = true)
    (base : Rendered false e) : Rendered whole (.percentOf (x / 100) raw e) := by
  obtain ⟨text, render, -, -, written⟩ := base
  obtain ⟨s, spelled⟩ := exists_percentText plain
  have renders (cs : List Char)
      (percent : literalText (x / 100) .percent = .ok (String.ofList (cs ++ ['%']))) :
      (Expr.percentOf (x / 100) raw e).render =
        .ok (String.ofList (cs ++ ('%' :: (ofChars ++ text.toList)))) := by
    rw [Expr.render_percentOf percent render]
    refine congrArg Except.ok ?_
    rw [← String.toList_inj]
    simp [toString, ofChars]
  rcases spelled with ⟨eq, percent⟩ | ⟨eq, percent⟩
  · refine .of_written (renders s.chars percent) ?_
    rw [String.toList_ofList, eq]
    exact (written_percentOf (written rfl)).1
  · refine .of_written (renders ('-' :: s.chars) percent) ?_
    rw [String.toList_ofList, eq]
    exact (written_percentOf (written rfl)).2

theorem rendered_binary {whole : Bool} {left right : Expr} {op : BinaryOp} (noMod : op ≠ .mod)
    (l : Rendered false left) (r : Rendered false right) :
    Rendered whole (.binary left op right) := by
  obtain ⟨textL, renderL, -, -, writtenL⟩ := l
  obtain ⟨textR, renderR, -, -, writtenR⟩ := r
  refine .of_written (Expr.render_binary renderL renderR) ?_
  have written := written_group (spelled_chain noMod (writtenL rfl) (writtenR rfl)) (by decide)
  simpa [toString] using written

theorem rendered_signed {whole : Bool} {sign : SignOp} (h : Rendered false e) :
    Rendered whole (.signed sign e) := by
  obtain ⟨text, render, -, -, written⟩ := h
  have written := written rfl
  refine .of_written (Expr.render_signed render) ?_
  have inner : Spelled .operand true starts (sign.symbol.toList ++ text.toList)
      (Expr.Means · (.signed sign e)) := by
    cases sign with
    | plus => exact spelled_sign '+' rfl written.leading nofun
    | minus =>
      cases digit : startsDigit text.toList with
      | true => exact (written.negated digit).mono (by decide)
      | false =>
        exact spelled_sign '-' rfl written.leading fun _ _ => startsNumber_append written digit
  have grouped := written_group inner.toWhole (by decide)
  simpa [toString] using grouped

theorem rendered_conversion {target : String} (h : Rendered false e) (into : IsTarget target) :
    Rendered true (.conversion e target) := by
  obtain ⟨text, render, -, -, written⟩ := h
  have chars : (s!"{text} in {target}").toList =
      text.toList ++ ' ' :: 'i' :: 'n' :: ' ' :: target.toList := by simp [toString]
  refine ⟨s!"{text} in {target}", Expr.render_conversion render, ?_, ?_, nofun⟩
  · rw [chars]
    exact (written rfl).startsVisible _
  · rw [chars]
    exact spelled_conversion (written rfl) into

theorem rendered_group {whole : Bool} (h : Rendered true e) : Rendered whole (.group e) := by
  obtain ⟨text, render, -, spelled, -⟩ := h
  refine .of_written (Expr.render_group render) ?_
  have same (s : Scope) : e.eval s = (Expr.group e).eval s := by rw [Expr.eval]
  have written := (written_group spelled (by decide)).means same
  simpa [toString] using written

theorem renderAll_of_rendered {es : List Expr} (h : ∀ e ∈ es, Rendered true e) :
    ∃ texts, Expr.renderAll es = .ok texts ∧
      List.Forall₂ (fun e cs => Spelled .whole true heads cs (Expr.Means · e)) es
        (texts.map String.toList) := by
  induction es with
  | nil => exact ⟨[], rfl, .nil⟩
  | cons e es ih =>
    obtain ⟨⟨text, render, -, spelled, -⟩, others⟩ := List.forall_mem_cons.mp h
    obtain ⟨texts, renderOthers, all⟩ := ih others
    exact ⟨text :: texts, Expr.renderAll_cons render renderOthers, .cons spelled all⟩

theorem rendered_call {whole : Bool} {function : String} {args : List Expr}
    (word : IsWord function.toList) (h : ∀ e ∈ args, Rendered true e) :
    Rendered whole (.call function args) := by
  obtain ⟨texts, renderArgs, all⟩ := renderAll_of_rendered h
  refine .of_written (Expr.render_call renderArgs) ?_
  have written := written_call word all
  simpa [String.toList_intercalate] using written

theorem isPlain_of_allPlain {es : List Expr} (h : Expr.allPlain es = true) :
    ∀ e ∈ es, e.isPlain = true := by
  induction es with
  | nil => exact List.forall_mem_nil _
  | cons e es ih =>
    obtain ⟨first, others⟩ := by simpa [Expr.allPlain] using h
    exact List.forall_mem_cons.mpr ⟨first, ih others⟩

/-- A plain expression of a text has a text, of which its value is read. -/
theorem rendered_of_fromText {whole : Bool} (h : e.FromText whole) (plain : e.isPlain = true) :
    Rendered whole e := by
  induction h with
  | amount mem => exact rendered_amount mem plain
  | percent x => exact rendered_percent plain
  | name word => exact .of_written rfl (written_name word)
  | binary _ _ ihLeft ihRight =>
    obtain ⟨⟨left, noMod⟩, right⟩ := by simpa [Expr.isPlain] using plain
    exact rendered_binary noMod (ihLeft left) (ihRight right)
  | signed _ ih => exact rendered_signed (ih plain)
  | percentOf x _ ih =>
    obtain ⟨amount, base⟩ := by simpa [Expr.isPlain] using plain
    exact rendered_percentOf amount (ih base)
  | conversion _ into ih => exact rendered_conversion (ih plain) into
  | call word _ ih =>
    exact rendered_call word fun e mem => ih e mem (isPlain_of_allPlain plain e mem)
  | group _ ih => exact rendered_group (ih plain)

end LineCalc
