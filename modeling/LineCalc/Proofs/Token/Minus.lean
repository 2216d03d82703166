import LineCalc.Proofs.Token.Phrase

/-!
# Signs and subtractions

A minus sign in front of a number belongs to the number where an operand may begin. The scanner
tells that by the last character before the sign that is no blank. The tokens tell it as well: each
kind of token ends in characters behind which an operand may begin, or in others. Comments alone end
in any character, but behind a comment the line is at its end.

Results:
1. `spelled_lexeme`: what the characters of a token are, by its kind.
2. `opensOperand_token`: behind a token the last character tells what its kind does.
3. `minus_law`: the signs of numbers, and all other minus signs, by the tokens before them.
-/

namespace LineCalc

/-- After a token of this kind an operand may begin. -/
def TokenKind.opensOperand : TokenKind → Bool
  | .plus | .minus | .times | .slash | .caret | .doubleStar | .leftParen | .equals | .comma
  | .newline => true
  | _ => false

theorem TokenKind.opensOperand_of_isSymbol {kind : TokenKind} :
    kind.isSymbol = true → kind.opensOperand = false := by
  cases kind <;> decide

namespace Token

open LineCalc.Text LineCalc.Decimal

variable {cur : Cursor} {c : Char} {cs ds piece rest : List Char} {kind : TokenKind} {n : Nat}

/-! ## The last character of a numeral -/

/-- Some characters end in one of a sort. -/
def EndsIn (sort : Char → Bool) (cs : List Char) : Prop :=
  ∃ init d, cs = init ++ [d] ∧ sort d = true

theorem EndsIn.append {sort : Char → Bool} (cs : List Char) (h : EndsIn sort ds) :
    EndsIn sort (cs ++ ds) := by
  obtain ⟨init, d, rfl, last⟩ := h
  exact ⟨cs ++ init, d, (List.append_assoc ..).symm, last⟩

theorem endsIn_of_forall {sort : Char → Bool} (nonempty : cs ≠ []) (all : ∀ c ∈ cs, sort c = true) :
    EndsIn sort cs :=
  ⟨cs.dropLast, cs.getLast nonempty, (List.dropLast_concat_getLast nonempty).symm,
    all _ (List.getLast_mem nonempty)⟩

theorem startsDigit_of_startsGroup (h : startsGroup cs = true) : startsDigit cs = true := by
  unfold startsGroup at h
  split at h
  · simp only [Bool.and_eq_true] at h
    exact h.1.1.1
  · cases h

theorem endsIn_mantissa (afterPoint : Bool) (cs : List Char) :
    cs.take (mantissaLength afterPoint cs) = [] ∧ startsDigit cs = false ∨
      EndsIn isDigit (cs.take (mantissaLength afterPoint cs)) := by
  induction cs generalizing afterPoint with
  | nil => exact .inl ⟨rfl, rfl⟩
  | cons c cs ih =>
    -- A comma or a point is taken only in front of a digit.
    have behind {d : Char} (p : Bool) (digit : startsDigit cs = true) :
        EndsIn isDigit (d :: cs.take (mantissaLength p cs)) := by
      refine .append [d] ((ih p).resolve_left ?_)
      rw [digit]
      exact fun h => Bool.noConfusion h.2
    rw [mantissaLength]
    split
    · next digit =>
      rw [List.take_succ_cons]
      rcases ih afterPoint with ⟨nothing, -⟩ | ends
      · rw [nothing]
        exact .inr ⟨[], c, rfl, digit⟩
      · exact .inr (.append [c] ends)
    · next noDigit =>
      split
      · next comma =>
        simp only [Bool.and_eq_true] at comma
        exact .inr (behind _ (startsDigit_of_startsGroup comma.2))
      · split
        · next point =>
          simp only [Bool.and_eq_true] at point
          exact .inr (behind _ point.2)
        · exact .inl ⟨rfl, by simpa [startsDigit] using noDigit⟩

theorem endsIn_power (h : IsPower isDigit cs) : cs = [] ∨ EndsIn isDigit cs := by
  refine h.imp_right ?_
  rintro ⟨e, sign, ds, rfl, -, -, nonempty, digits⟩
  exact .append (e :: sign) (endsIn_of_forall nonempty digits)

/-- A numeral ends in a digit or a percent sign. -/
theorem endsIn_numeral (starts : startsNumber cs = true) :
    EndsIn (fun c => isDigit c || c == '%') (cs.take (numeral cs).2) := by
  have digit : EndsIn isDigit (cs.take (numberLength cs)) := by
    have mantissa := (endsIn_mantissa false cs).resolve_left fun h =>
      filter_take_mantissaLength_ne_nil starts (by rw [h.1, List.filter_nil])
    rw [numberLength, List.take_add]
    rcases endsIn_power (isPower_take_powerLength (cs.drop (mantissaLength false cs))) with
      none | power
    · rwa [none, List.append_nil]
    · exact .append _ power
  obtain ⟨percent, rfl | rfl, all⟩ := take_numeral cs
  · obtain ⟨init, d, eq, last⟩ := digit
    rw [all, List.append_nil]
    exact ⟨init, d, eq, by simp [last]⟩
  · exact ⟨_, '%', all, by decide⟩

/-! ## The characters of a token -/

/-- What the characters of a token of a kind are. -/
inductive Spelled : TokenKind → List Char → Prop
  | lineBreak : Spelled .newline ['\n']
  | comment {cs : List Char} : Spelled .comment cs
  | numeral {kind : TokenKind} {cs : List Char} : kind = .number ∨ kind = .percent →
      EndsIn (fun c => isDigit c || c == '%') cs → Spelled kind cs
  | word {kind : TokenKind} {cs : List Char} : kind ∈ [.word, .inWord, .ofWord, .modWord] →
      (∀ c ∈ cs, (continuesWord c || isGap c) = true) → EndsIn continuesWord cs → Spelled kind cs
  | glyph {c : Char} : isGlyph c = true → Spelled (glyphKind c) [c]
  | doubleStar : Spelled .doubleStar ['*', '*']
  | sign {c : Char} : c ≠ '\n' → isGap c = false → Spelled (punctuation c) [c]

/-- The further words of a phrase, with the blanks before them, end as words do. -/
theorem Continues.spelled {words : List String} (h : Continues words piece rest)
    (nonempty : ∀ word ∈ words, word ≠ "") :
    (∀ c ∈ piece, (continuesWord c || isGap c) = true) ∧
      (piece = [] ∨ EndsIn continuesWord piece) := by
  induction h with
  | done => exact ⟨List.forall_mem_nil _, .inl rfl⟩
  | @word blank gap word piece rest more starts blanks letters ends _ ih =>
    obtain ⟨some, others⟩ := List.forall_mem_cons.mp nonempty
    obtain ⟨all, last⟩ := ih others
    refine ⟨?_, .inr ?_⟩
    · rw [List.forall_mem_append, List.forall_mem_append]
      refine ⟨fun c mem => ?_, fun c mem => ?_, all⟩
      · rw [isGap_of_mem_blanks starts blanks c mem, Bool.or_true]
      · rw [letters c mem, Bool.true_or]
    · refine .append _ ?_
      rcases last with rfl | last
      · rw [List.append_nil]
        exact endsIn_of_forall (ne_nil_of_lower some) letters
      · exact .append _ last

/-- A word, with a phrase that it may begin, is made of word characters and blanks. -/
theorem spelled_word {word : List Char} (kind : TokenKind)
    (mem : kind ∈ [.word, .inWord, .ofWord, .modWord]) (nonempty : word ≠ [])
    (letters : ∀ c ∈ word, continuesWord c = true)
    (behind : (∀ c ∈ piece, (continuesWord c || isGap c) = true) ∧
      (piece = [] ∨ EndsIn continuesWord piece)) : Spelled kind (word ++ piece) := by
  refine .word mem ?_ ?_
  · refine List.forall_mem_append.mpr ⟨fun c mem => ?_, behind.1⟩
    rw [letters c mem, Bool.true_or]
  · rcases behind.2 with rfl | last
    · rw [List.append_nil]
      exact endsIn_of_forall nonempty letters
    · exact .append word last

theorem LongestOf.spelled {first : String}
    (h : LongestOf (continuations first) piece rest) :
    (∀ c ∈ piece, (continuesWord c || isGap c) = true) ∧
      (piece = [] ∨ EndsIn continuesWord piece) := by
  rcases h with ⟨words, mem, continues, -⟩ | ⟨rfl, -⟩
  · exact continues.spelled fun word found => ((of_mem_continuations _ words mem).2.2 word found).1
  · exact ⟨List.forall_mem_nil _, .inl rfl⟩

theorem spelled_lexeme (visible : isGap c = false) (h : lexeme cur c cs = (kind, n)) :
    Spelled kind (c :: cs.take n) := by
  unfold lexeme at h
  split at h
  · next lineBreak =>
    cases h
    rw [beq_iff_eq.mp lineBreak]
    exact .lineBreak
  next noBreak =>
  split at h
  · cases h
    exact .comment
  split at h
  · next glyph =>
    cases h
    exact .glyph glyph
  split at h
  · next starts =>
    have kind_eq : (numeral (c :: cs)).1 = kind := congrArg Prod.fst h
    have length : (numeral (c :: cs)).2 - 1 = n := congrArg Prod.snd h
    have whole : c :: cs.take n = (c :: cs).take (numeral (c :: cs)).2 := by
      rw [← length, ← List.take_succ_cons, Nat.sub_add_cancel (numeral_pos starts)]
    rw [← kind_eq, whole]
    exact .numeral (numeral_kind _) (endsIn_numeral starts)
  split at h
  · next minus =>
    simp only [Bool.and_eq_true] at minus
    have kind_eq : (numeral cs).1 = kind := congrArg Prod.fst h
    have length : (numeral cs).2 = n := congrArg Prod.snd h
    rw [← kind_eq, ← length]
    exact .numeral (numeral_kind cs) (.append [c] (endsIn_numeral minus.1.2))
  split at h
  · next starts =>
    have letters : ∀ d ∈ c :: leadingWord cs, continuesWord d = true :=
      List.forall_mem_cons.mpr ⟨startsWord_continuesWord starts, fun _ => List.mem_takeWhile_imp⟩
    have alone : cs.take (leadingWord cs).length = leadingWord cs :=
      (List.prefix_iff_eq_take.mp (List.takeWhile_prefix _)).symm
    simp only [List.length_cons, Nat.add_sub_cancel] at h
    split at h
    · next found =>
      cases h
      have keyword : kind ∈ [.word, .inWord, .ofWord, .modWord] := by
        unfold keyword? at found
        split at found <;> cases found <;> decide
      have spelled : Spelled kind (c :: leadingWord cs ++ []) :=
        spelled_word kind keyword (List.cons_ne_nil _ _) letters ⟨List.forall_mem_nil _, .inl rfl⟩
      rwa [alone, ← List.append_nil (c :: leadingWord cs)]
    · cases h
      obtain ⟨piece, rest, -, taken, -, longest⟩ := wordLength_outcome c cs
      rw [wordLength] at taken
      rw [taken]
      exact spelled_word .word (by decide) (List.cons_ne_nil _ _) letters longest.spelled
  split at h
  · next double =>
    cases h
    simp only [Bool.and_eq_true, beq_iff_eq] at double
    obtain ⟨rest, rfl⟩ := List.head?_eq_some_iff.mp double.2
    rw [double.1]
    exact .doubleStar
  · cases h
    exact .sign (by simpa using noBreak) visible

/-! ## Behind a token -/

/-- Blanks and the characters behind which an operand may begin are no parts of numbers and words,
and no symbols. -/
theorem of_boundary (h : isGap c = true ∨ opensBehind c = true) :
    isDigit c = false ∧ c ≠ '%' ∧ continuesWord c = false ∧ isGlyph c = false := by
  have mem : c ∈ [' ', '\t', '\r', '+', '-', '*', '/', '^', '(', '=', ',', '\n'] := by
    rcases h with blank | opens
    · simp only [isGap, Bool.or_eq_true, beq_iff_eq, or_assoc] at blank
      rcases blank with rfl | rfl | rfl <;> decide
    · exact List.mem_append_right [' ', '\t', '\r'] (of_decide_eq_true opens)
  fin_cases mem <;> decide +kernel

/-- Behind what is no blank and none of those characters no operand may begin. -/
theorem EndsIn.closes {sort : Char → Bool} (h : EndsIn sort cs) (closed : kind.opensOperand = false)
    (inner : ∀ c, isGap c = true ∨ opensBehind c = true → sort c = false) :
    EndsIn (fun c => !isGap c && opensBehind c == kind.opensOperand) cs := by
  obtain ⟨init, d, rfl, last⟩ := h
  have boundary (outer : isGap d = true ∨ opensBehind d = true) : False := by
    rw [inner d outer] at last
    cases last
  have visible : isGap d = false := Bool.eq_false_iff.mpr fun gap => boundary (.inl gap)
  have shut : opensBehind d = false := Bool.eq_false_iff.mpr fun opens => boundary (.inr opens)
  exact ⟨init, d, rfl, by simp [visible, shut, closed]⟩

theorem opensBehind_punctuation (noBreak : c ≠ '\n') :
    opensBehind c = (punctuation c).opensOperand := by
  unfold punctuation
  split
  case h_10 =>
    have others : c ∉ ['+', '-', '*', '/', '^', '(', '=', ',', '\n'] := by simp_all
    exact decide_eq_false others
  all_goals rfl

theorem glyphKind_closes : (glyphKind c).opensOperand = false := by
  unfold glyphKind
  split <;> rfl

/-- But for comments, the last character of a token is no blank and tells what the kind does. -/
theorem Spelled.last (h : Spelled kind cs) (noComment : kind ≠ .comment) :
    EndsIn (fun c => !isGap c && opensBehind c == kind.opensOperand) cs := by
  cases h with
  | lineBreak => exact ⟨[], '\n', rfl, rfl⟩
  | comment => exact absurd rfl noComment
  | numeral numeric ends =>
    refine ends.closes (by rcases numeric with rfl | rfl <;> rfl) fun c outer => ?_
    obtain ⟨noDigit, noPercent, -⟩ := of_boundary outer
    simp [noDigit, noPercent]
  | word mem _ ends =>
    have closed : ∀ kind ∈ [TokenKind.word, .inWord, .ofWord, .modWord],
        kind.opensOperand = false := by decide
    exact ends.closes (closed kind mem) fun c outer => (of_boundary outer).2.2.1
  | @glyph c glyph =>
    have symbol : EndsIn isGlyph [c] := ⟨[], c, rfl, glyph⟩
    refine symbol.closes glyphKind_closes fun c outer => ?_
    exact (of_boundary outer).2.2.2
  | doubleStar => exact ⟨['*'], '*', rfl, rfl⟩
  | sign noBreak visible => exact ⟨[], _, rfl, by simp [visible, opensBehind_punctuation noBreak]⟩

theorem opensAfter_blanks {opens : Bool} {gap : List Char} (blanks : ∀ c ∈ gap, isGap c = true) :
    opensAfter opens gap = opens := by
  induction gap with
  | nil => rfl
  | cons c gap ih =>
    obtain ⟨blank, others⟩ := List.forall_mem_cons.mp blanks
    rw [opensAfter, List.foldl_cons, if_pos blank]
    exact ih others

/-- Behind a token, and some blanks, an operand may begin as the kind tells. -/
theorem opensOperand_token {gap : List Char} (h : Spelled kind cs) (noComment : kind ≠ .comment)
    (blanks : ∀ c ∈ gap, isGap c = true) :
    ((cur.advance cs).advance gap).opensOperand = kind.opensOperand := by
  obtain ⟨init, d, rfl, last⟩ := h.last noComment
  simp only [Bool.and_eq_true, Bool.not_eq_true', beq_iff_eq] at last
  rw [opensOperand_advance, opensAfter_blanks blanks, opensOperand_advance, opensAfter,
    List.foldl_append, List.foldl_cons, List.foldl_nil, if_neg (by simp [last.1]), last.2]

/-! ## Minus signs -/

/-- A minus sign is that of a number or a token by itself. -/
theorem lexeme_minus (cur : Cursor) (cs : List Char) : lexeme cur '-' cs =
    if startsNumber cs && cur.opensOperand then numeral cs else (.minus, 0) := by
  obtain ⟨-, -, noGlyph, noDigit, -, noWord, -⟩ := of_mem_signs '-' (by decide)
  have noNumber : startsNumber ('-' :: cs) = false := by simp [startsNumber, noDigit]
  rw [lexeme, if_neg (by decide), if_neg (by simp), if_neg (by simp [noGlyph]),
    if_neg (by simp [noNumber]), Bool.and_assoc, beq_self_eq_true, Bool.true_and]
  split
  · rfl
  · rw [if_neg (by simp [noWord]), if_neg (by simp)]
    rfl

/-- A minus sign stands in a comment or a number, or is a token. -/
theorem Spelled.minus (h : Spelled kind cs) (mem : '-' ∈ cs) :
    kind = .comment ∨ (kind = .number ∨ kind = .percent) ∨ kind = .minus ∧ cs = ['-'] := by
  obtain ⟨-, -, noLetter, noGlyph⟩ := of_boundary (c := '-') (.inr rfl)
  cases h with
  | comment => exact .inl rfl
  | numeral numeric => exact .inr (.inl numeric)
  | word _ all =>
    have other := all '-' mem
    rw [noLetter] at other
    cases other
  | glyph glyph =>
    rw [← List.mem_singleton.mp mem, noGlyph] at glyph
    cases glyph
  | lineBreak | doubleStar => exact absurd mem (by decide)
  | sign =>
    rw [← List.mem_singleton.mp mem]
    exact .inr (.inr ⟨rfl, rfl⟩)

/-- Behind some tokens an operand may begin: there are none, or the last one is of such a kind. -/
def opensBehindTokens (front : List Token) : Bool := front.getLast?.all fun t => t.kind.opensOperand

section

variable {text : String} {front back : List Token} {p t : Token} {i : Nat}

/-- A token and the one behind it. -/
theorem ofText_pair (h : ofText text = front ++ p :: t :: back) : ∃ c cs more gap,
    isGap c = false ∧ lexeme (placeOf text p) c cs = (p.kind, more) ∧
    (∀ c ∈ gap, isGap c = true) ∧ cs.drop more = gap ++ text.toList.drop t.pos ∧
    placeOf text t = ((placeOf text p).advance (c :: cs.take more)).advance gap := by
  obtain ⟨tokens, visible, -⟩ := ofText_split h
  cases here : text.toList.drop p.pos with
  | nil =>
    rw [here, lexFrom] at tokens
    cases (List.cons.inj tokens).2
  | cons c cs =>
    rw [here] at tokens visible
    obtain ⟨more, cut, -, behind⟩ := lexeme_of_lexFrom (visible c rfl) tokens
    have behind : lexFrom _ _ = [] ++ t :: back := behind.symm
    obtain ⟨gap, rest, left, -, place, -, blanks⟩ := lexFrom_split behind
    have all : text.toList = text.toList.take p.pos ++ (c :: cs.take more ++ gap) ++ rest := by
      rw [List.append_assoc, List.append_assoc, ← left, List.cons_append, List.take_append_drop,
        ← here, List.take_append_drop]
    have count : t.pos = (text.toList.take p.pos ++ (c :: cs.take more ++ gap)).length := by
      rw [place, ← Cursor.advance_append, placeOf, ← Cursor.advance_append]
      exact (Cursor.isAfter_start.advance _).pos
    refine ⟨c, cs, more, gap, visible c rfl, cut, blanks rfl, ?_, ?_⟩
    · have after : text.toList.drop t.pos = rest :=
        (congrArg (List.drop t.pos) all).trans (List.drop_left' count.symm)
      rw [left, after]
    · have before : text.toList.take t.pos =
          text.toList.take p.pos ++ (c :: cs.take more ++ gap) :=
        (congrArg (List.take t.pos) all).trans (List.take_left' count.symm)
      rw [placeOf, before, Cursor.advance_append, Cursor.advance_append]
      rfl

/-- Behind a comment the line is at its end. -/
theorem lineBreak_of_comment {gap : List Char} (h : lexeme cur c cs = (.comment, n))
    (left : cs.drop n = gap ++ rest) (blanks : ∀ c ∈ gap, isGap c = true) :
    ∀ c ∈ rest.head?, c = '\n' := by
  have length := (comment_of_lexeme h).2
  have all : cs.takeWhile (· != '\n') ++ cs.dropWhile (· != '\n') = cs :=
    List.takeWhile_append_dropWhile
  have behind : cs.drop n = cs.dropWhile (· != '\n') := by
    rw [length]
    exact (congrArg (List.drop _) all.symm).trans (List.drop_left' rfl)
  have first := List.head?_dropWhile_not (· != '\n') cs
  rw [← behind, left] at first
  cases gap with
  | nil =>
    rintro c found
    rw [List.nil_append, Option.mem_def.mp found] at first
    simpa using first
  | cons blank gap =>
    have none : blank = '\n' := by simpa using first
    have gap := blanks blank List.mem_cons_self
    rw [none] at gap
    cases gap

/-- In front of a minus sign the last character tells what the token before does. -/
theorem opensOperand_placeOf (h : ofText text = front ++ t :: back)
    (minus : text.toList.drop t.pos = '-' :: cs) :
    (placeOf text t).opensOperand = opensBehindTokens front := by
  rcases List.eq_nil_or_concat front with rfl | ⟨front, p, rfl⟩
  · rw [placeOf, opensOperand_advance, opensAfter_blanks ((ofText_split h).2.2 rfl)]
    rfl
  · rw [List.concat_eq_append, List.append_assoc, List.singleton_append] at h
    obtain ⟨c, ds, more, gap, visible, cut, blanks, left, place⟩ := ofText_pair h
    by_cases comment : p.kind = .comment
    · rw [comment] at cut
      rw [minus] at left
      cases lineBreak_of_comment cut left blanks '-' rfl
    · rw [place, opensOperand_token (spelled_lexeme visible cut) comment blanks, opensBehindTokens,
        List.concat_eq_append, List.getLast?_concat]
      rfl

theorem isNumeral_iff : isNumeral t = true ↔ t.kind = .number ∨ t.kind = .percent := by
  simp [isNumeral]

/-- Behind an operand no other one begins. -/
theorem opensOperand_of_operand (operand : isNumeral p = true ∨ p.kind = .word ∨
    p.kind = .rightParen ∨ p.kind.isSymbol = true) : p.kind.opensOperand = false := by
  rcases operand with numeric | word | paren | symbol
  · rcases isNumeral_iff.mp numeric with kind | kind <;> rw [kind] <;> rfl
  · rw [word]
    rfl
  · rw [paren]
    rfl
  · exact TokenKind.opensOperand_of_isSymbol symbol

/-- What a token is that begins with a minus sign. -/
theorem token_at_minus (h : ofText text = front ++ t :: back)
    (minus : (text.toList.drop t.pos).head? = some '-') :
    (startsNumber (text.toList.drop t.pos).tail = true ∧ opensBehindTokens front = true) ∧
        isNumeral t = true ∧ t.text.toList.head? = some '-' ∨
      ¬(startsNumber (text.toList.drop t.pos).tail = true ∧ opensBehindTokens front = true) ∧
        t.kind = .minus ∧ t.text = "-" := by
  obtain ⟨tokens, -⟩ := ofText_split h
  obtain ⟨cs, here⟩ := List.head?_eq_some_iff.mp minus
  rw [here] at tokens
  obtain ⟨more, cut, literal, -⟩ := lexeme_of_lexFrom rfl tokens
  rw [lexeme_minus, opensOperand_placeOf h here] at cut
  rw [here, List.tail_cons, ← Bool.and_eq_true]
  split at cut
  · next number =>
    refine .inl ⟨number, ?_, ?_⟩
    · have numeric := numeral_kind cs
      rw [cut] at numeric
      exact isNumeral_iff.mpr numeric
    · rw [literal, String.toList_ofList]
      rfl
  · next other =>
    have length : 0 = more := congrArg Prod.snd cut
    refine .inr ⟨other, (congrArg Prod.fst cut).symm, ?_⟩
    rw [literal, ← length]
    rfl

/-- A number that begins with a minus sign stands where there is one. -/
theorem minus_of_text (h : ofText text = front ++ t :: back) (numeric : isNumeral t = true)
    (sign : t.text.toList.head? = some '-') : (text.toList.drop t.pos).head? = some '-' := by
  obtain ⟨tokens, visible, -⟩ := ofText_split h
  cases here : text.toList.drop t.pos with
  | nil =>
    rw [here] at tokens
    rw [isNumeral, finish_of_lexFrom tokens] at numeric
    cases numeric
  | cons c cs =>
    rw [here] at tokens visible
    obtain ⟨more, -, literal, -⟩ := lexeme_of_lexFrom (visible c rfl) tokens
    rwa [literal, String.toList_ofList] at sign

/-- Each minus sign of a text is in a comment or in a number, or is a token. -/
theorem exists_token_of_minus {before : List Char} (h : cur.IsAfter before)
    (minus : cs[i]? = some '-') : ∃ t ∈ lexFrom cur cs,
      (t.pos ≤ before.length + i ∧ before.length + i < t.stop) ∧
      (t.kind = .comment ∨ isNumeral t = true ∨
        t.kind = .minus ∧ t.text = "-" ∧ t.pos = before.length + i) := by
  fun_induction lexFrom cur cs generalizing before i with
  | case1 => cases minus
  | case2 cur c cs gap ih =>
    cases i with
    | zero =>
      cases minus
      cases gap
    | succ i =>
      have later := ih (h.step c) minus
      rwa [List.length_append, List.length_singleton, Nat.add_assoc, Nat.add_comm 1] at later
  | case3 cur c cs visible kind more cut piece =>
    rename_i ih
    have all : c :: cs = piece ++ cs.drop more := by
      rw [List.cons_append, List.take_append_drop]
    rw [all] at minus
    by_cases inside : i < piece.length
    · rw [List.getElem?_append_left inside] at minus
      refine ⟨_, List.mem_cons_self, ⟨?_, ?_⟩, ?_⟩
      · rw [h.pos]
        exact Nat.le_add_right _ _
      · rw [stop, h.pos, String.length_ofList]
        exact Nat.add_lt_add_left inside _
      · have spelled := spelled_lexeme (by simpa using visible) cut
        refine (spelled.minus (List.mem_of_getElem? minus)).imp_right (.imp (fun numeric => ?_) ?_)
        · simpa [isNumeral] using numeric
        · rintro ⟨rfl, alone⟩
          have first : i = 0 := by
            have count : piece.length = 1 := congrArg List.length alone
            omega
          exact ⟨rfl, congrArg String.ofList alone, by rw [h.pos, first, Nat.add_zero]⟩
    · rw [List.getElem?_append_right (Nat.not_lt.mp inside)] at minus
      obtain ⟨t, mem, place, sort⟩ := ih (h.advance piece) minus
      have index : (before ++ piece).length + (i - piece.length) = before.length + i := by
        rw [List.length_append]
        omega
      rw [index] at place sort
      exact ⟨t, List.mem_cons_of_mem _ mem, place, sort⟩

end

/-- A token is a number with a minus sign exactly if there is one at its place, a digit follows, or a
point and a digit, and the token before is one behind which an operand may begin, or there is none.
Each other token that begins with a minus sign is the sign alone; behind numbers, words, closing
parentheses and symbols all of them are. And each minus sign of a text is in a comment or in a number,
or is such a token. -/
theorem minus_law (text : String) :
    (∀ front t back, ofText text = front ++ t :: back →
      let here := text.toList.drop t.pos
      (isNumeral t = true ∧ t.text.toList.head? = some '-' ↔
        here.head? = some '-' ∧ startsNumber here.tail = true ∧ opensBehindTokens front = true) ∧
      (here.head? = some '-' → isNumeral t = true ∨ t.kind = .minus ∧ t.text = "-")) ∧
    (∀ front p t back, ofText text = front ++ p :: t :: back →
      isNumeral p = true ∨ p.kind = .word ∨ p.kind = .rightParen ∨ p.kind.isSymbol = true →
      (text.toList.drop t.pos).head? = some '-' → t.kind = .minus ∧ t.text = "-") ∧
    ∀ i, text.toList[i]? = some '-' → ∃ t ∈ ofText text, (t.pos ≤ i ∧ i < t.pos + t.text.length) ∧
      (t.kind = .comment ∨ isNumeral t = true ∨ t.kind = .minus ∧ t.text = "-" ∧ t.pos = i) := by
  refine ⟨fun front t back h => ⟨⟨?_, ?_⟩, fun minus => ?_⟩,
    fun front p t back h operand minus => ?_, fun i minus => ?_⟩
  · rintro ⟨numeric, sign⟩
    have minus := minus_of_text h numeric sign
    rcases token_at_minus h minus with ⟨number, -⟩ | ⟨-, kind, -⟩
    · exact ⟨minus, number⟩
    · rw [isNumeral, kind] at numeric
      cases numeric
  · rintro ⟨minus, number⟩
    exact ((token_at_minus h minus).resolve_right fun other => other.1 number).2
  · exact (token_at_minus h minus).imp (fun number => number.2.1) And.right
  · rw [← List.singleton_append, ← List.append_assoc] at h
    rcases token_at_minus h minus with ⟨⟨-, opens⟩, -⟩ | ⟨-, subtraction⟩
    · rw [opensBehindTokens, List.getLast?_concat, Option.all_some, opensOperand_of_operand operand]
        at opens
      cases opens
    · exact subtraction
  · have found := exists_token_of_minus Cursor.isAfter_start minus
    rw [List.length_nil, Nat.zero_add] at found
    exact found

end Token

end LineCalc
