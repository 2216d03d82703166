import Mathlib
import LineCalc.Proofs.Token.Lines

/-!
# Tokens of written text

Text that is put together from pieces is scanned piece by piece, as long as no piece is taken for a
part of the one before it: a sign, wherever it is not that of a number or of a comment; a word that
was scanned once, wherever neither a word character follows nor a blank with a further word of a
phrase.

Results:
1. `Scans.append`: pieces that are scanned one after another.
2. `lexed`: what can stand at the front of a text, by the kind of the token that it is.
3. `IsWord.scans`: a word is scanned again, also one that is a phrase.
-/

namespace LineCalc.Token

open LineCalc.Text

variable {opens : Bool} {cur : Cursor} {c d : Char} {cs ds rest : List Char} {kind : TokenKind}

/-! ## Pieces -/

/-- The kind and the text of a token, without its place. -/
def shape (t : Token) : TokenKind × String := (t.kind, t.text)

/-- After a character an operand may begin. -/
def opensBehind (c : Char) : Bool := c ∈ ['+', '-', '*', '/', '^', '(', '=', ',', '\n']

/-- After some characters an operand may begin, if before them it may as told. -/
def opensAfter (opens : Bool) (cs : List Char) : Bool :=
  cs.foldl (fun opens c => if isGap c then opens else opensBehind c) opens

theorem opensOperand_advance (cur : Cursor) (cs : List Char) :
    (cur.advance cs).opensOperand = opensAfter cur.opensOperand cs := by
  induction cs generalizing cur with
  | nil => rfl
  | cons c cs ih =>
    have step : (cur.step c).opensOperand =
        if isGap c then cur.opensOperand else opensBehind c := by
      rw [Cursor.opensOperand, Cursor.step]
      split <;> split <;> simp_all [Cursor.opensOperand, opensBehind]
    rw [Cursor.advance, List.foldl_cons, ← Cursor.advance, ih, step]
    rfl

/-- In front of `rest`, and where an operand may begin as told, some characters are scanned as
tokens of these kinds and texts. -/
def Scans (opens : Bool) (cs rest : List Char) (shapes : List (TokenKind × String)) : Prop :=
  ∀ cur : Cursor, cur.opensOperand = opens → ∃ ts, ts.map shape = shapes ∧
    lexFrom cur (cs ++ rest) = ts ++ lexFrom (cur.advance cs) rest

theorem Scans.append {shapes shapes' : List (TokenKind × String)}
    (h : Scans opens cs (ds ++ rest) shapes) (h' : Scans (opensAfter opens cs) ds rest shapes') :
    Scans opens (cs ++ ds) rest (shapes ++ shapes') := by
  intro cur opening
  obtain ⟨ts, same, first⟩ := h cur opening
  obtain ⟨ts', same', second⟩ := h' (cur.advance cs) (by rw [opensOperand_advance, opening])
  refine ⟨ts ++ ts', by rw [List.map_append, same, same'], ?_⟩
  rw [List.append_assoc, first, second, List.append_assoc, Cursor.advance_append]

theorem Scans.blank (gap : isGap c = true) : Scans opens [c] rest [] := fun _ _ =>
  ⟨[], rfl, lexFrom_of_isGap gap⟩

/-- One token is scanned. -/
theorem Scans.lexeme (visible : isGap c = false)
    (h : ∀ cur : Cursor, cur.opensOperand = opens → lexeme cur c (cs ++ rest) = (kind, cs.length)) :
    Scans opens (c :: cs) rest [(kind, String.ofList (c :: cs))] := by
  intro cur opening
  have first := lexFrom_of_lexeme visible (h cur opening)
  rw [List.take_left, List.drop_left] at first
  exact ⟨[⟨kind, String.ofList (c :: cs), cur.pos, cur.line, cur.col⟩], rfl, first⟩

/-! ## Signs and symbols -/

/-- The characters that are written for themselves. -/
def signs : List Char := ['+', '-', '*', '/', '^', '(', ')', '=', ',']

theorem of_mem_signs : ∀ c ∈ signs, c ≠ '\n' ∧ c ≠ '#' ∧ isGlyph c = false ∧ isDigit c = false ∧
    c ≠ '.' ∧ startsWord c = false ∧ isGap c = false := by
  intro c mem
  fin_cases mem <;> decide +kernel

/-- A sign is scanned unless it begins a comment, a number or a double star. -/
theorem Scans.sign (mem : c ∈ signs) (noComment : c = '/' → rest.head? ≠ some '/')
    (noNumber : c = '-' → opens = true → startsNumber rest = false)
    (single : c = '*' → rest.head? ≠ some '*') :
    Scans opens [c] rest [(punctuation c, String.ofList [c])] := by
  obtain ⟨noBreak, noHash, noGlyph, noDigit, noPoint, noWord, visible⟩ := of_mem_signs c mem
  refine .lexeme visible fun cur opening => ?_
  have minus : (c == '-' && startsNumber rest && cur.opensOperand) = false := by
    rw [opening]
    by_cases minus : c = '-'
    · cases opens with
      | false => simp
      | true => simp [noNumber minus rfl]
    · simp [minus]
  have comment : (c == '#' || c == '/' && rest.head? == some '/') = false := by
    by_cases slash : c = '/'
    · simp [slash, noComment slash]
    · simp [slash, noHash]
  have double : (c == '*' && rest.head? == some '*') = false := by
    by_cases star : c = '*'
    · simp [star, single star]
    · simp [star]
  have noStart : startsNumber (c :: rest) = false := by simp [startsNumber, noDigit, noPoint]
  rw [List.nil_append, Token.lexeme, if_neg (by simpa using noBreak), comment, noGlyph, noStart,
    minus, noWord, double]
  rfl

/-- A sign that begins nothing else. -/
theorem Scans.mark (mem : c ∈ ['+', '^', '(', ')', '=', ',']) :
    Scans opens [c] rest [(punctuation c, String.ofList [c])] := by
  have sub : ['+', '^', '(', ')', '=', ','] ⊆ signs := by decide
  have others : '/' ∉ ['+', '^', '(', ')', '=', ','] ∧ '-' ∉ ['+', '^', '(', ')', '=', ','] ∧
      '*' ∉ ['+', '^', '(', ')', '=', ','] := by decide
  exact .sign (sub mem) (absurd · (ne_of_mem_of_not_mem mem others.1))
    (absurd · (ne_of_mem_of_not_mem mem others.2.1))
    (absurd · (ne_of_mem_of_not_mem mem others.2.2))

theorem Scans.glyph (h : isGlyph c = true) :
    Scans opens [c] rest [(glyphKind c, String.ofList [c])] := by
  have others : ∀ d ∈ ['\n', '#', '/', ' ', '\t', '\r'], isGlyph d = false := by
    intro d mem
    fin_cases mem <;> decide +kernel
  have ne {d : Char} (mem : d ∈ ['\n', '#', '/', ' ', '\t', '\r']) : c ≠ d := by
    rintro rfl
    rw [others c mem] at h
    cases h
  refine .lexeme ?_ fun cur _ => ?_
  · simp [isGap, ne]
  · simp [Token.lexeme, ne, h]

/-! ## Words -/

/-- What follows a word neither goes on with it nor with a phrase that it begins. -/
structure EndsWord (rest : List Char) : Prop where
  word : leadingWord rest = []
  phrase : ∀ first, ∀ words ∈ continuations first, wordsLength? words rest = none

/-- The continuations of a word are as long as each other, of words that are not empty and not
`in`. -/
theorem of_mem_continuations (first : String) : ∀ words ∈ continuations first,
    (∀ words' ∈ continuations first, words'.length = words.length) ∧
      words ≠ [] ∧ ∀ word ∈ words, word ≠ "" ∧ word ≠ "in" := by
  unfold continuations
  split <;> decide

theorem isGap_of_continuesWord (h : continuesWord c = true) : isGap c = false := by
  have others : ∀ d ∈ [' ', '\t', '\r'], continuesWord d = false := by
    intro d mem
    fin_cases mem <;> decide +kernel
  rw [Bool.eq_false_iff]
  intro gap
  simp only [isGap, Bool.or_eq_true, beq_iff_eq] at gap
  rw [others c (by simpa [or_assoc] using gap)] at h
  cases h

/-- What does not begin with a word character does not go on with a word. -/
theorem leadingWord_append {word : List Char} (letters : ∀ c ∈ word, continuesWord c = true)
    (ends : leadingWord rest = []) : leadingWord (word ++ rest) = word := by
  rw [leadingWord, List.takeWhile_append_of_pos letters]
  exact (congrArg (word ++ ·) ends).trans (List.append_nil _)

theorem leadingWord_take_append {tail : List Char} (n : Nat) (behind : leadingWord tail = [])
    (ends : leadingWord rest = []) : leadingWord (tail.take n ++ rest) = [] := by
  cases tail with
  | nil => rwa [List.take_nil]
  | cons t tail =>
    cases n with
    | zero => exact ends
    | succ n => simpa [leadingWord, List.takeWhile_cons] using behind

theorem leadingWord_dropWhile (cs : List Char) : leadingWord (cs.dropWhile continuesWord) = [] := by
  rw [leadingWord, List.takeWhile_eq_nil_iff]
  intro more
  simpa using List.dropWhile_get_zero_not continuesWord cs more

/-- A text is blanks, a word and what does not go on with it; the first two may be empty. -/
theorem exists_nextWord (cs : List Char) : ∃ gap word tail, cs = gap ++ (word ++ tail) ∧
    (∀ c ∈ gap, isGap c = true) ∧ (∀ c ∈ word, continuesWord c = true) ∧
    leadingWord tail = [] ∧ cs.takeWhile isGap = gap ∧ leadingWord (word ++ tail) = word := by
  have word : leadingWord (cs.dropWhile isGap) ++ (cs.dropWhile isGap).dropWhile continuesWord =
      cs.dropWhile isGap := List.takeWhile_append_dropWhile
  refine ⟨cs.takeWhile isGap, leadingWord (cs.dropWhile isGap),
    (cs.dropWhile isGap).dropWhile continuesWord, ?_, fun _ => List.mem_takeWhile_imp,
    fun _ => List.mem_takeWhile_imp, leadingWord_dropWhile _, rfl, ?_⟩
  · rw [word, List.takeWhile_append_dropWhile]
  · rw [word]

/-- Blanks end where a word begins. -/
theorem takeWhile_isGap {gap word : List Char} (tail : List Char)
    (blank : ∀ c ∈ gap, isGap c = true) (letters : ∀ c ∈ word, continuesWord c = true)
    (nonempty : word ≠ []) :
    (gap ++ (word ++ tail)).takeWhile isGap = gap := by
  obtain ⟨c, word, rfl⟩ := List.exists_cons_of_ne_nil nonempty
  have visible : ¬isGap c = true := by
    simp [isGap_of_continuesWord (letters c List.mem_cons_self)]
  rw [List.takeWhile_append_of_pos blank, List.cons_append, List.takeWhile_cons_of_neg visible,
    List.append_nil]

/-- A phrase goes on behind a space or a tab only. -/
theorem blank_of_wordsLength? {expected : String} {more : List String} {n : Nat}
    (found : wordsLength? (expected :: more) cs = some n) :
    (cs.head?.any fun c => c == ' ' || c == '\t') = true := by
  by_contra other
  rw [wordsLength?, if_neg other] at found
  cases found

/-- The next word of a phrase, and what is left behind it. -/
theorem wordsLength?_append {gap word tail : List Char} (expected : String) (more : List String)
    (starts : ((gap ++ (word ++ tail)).head?.any fun c => c == ' ' || c == '\t') = true)
    (gaps : (gap ++ (word ++ tail)).takeWhile isGap = gap)
    (leading : leadingWord (word ++ tail) = word) :
    wordsLength? (expected :: more) (gap ++ (word ++ tail)) =
      if lower (String.ofList word) == expected then
        (wordsLength? more tail).map (gap.length + word.length + ·)
      else none := by
  rw [wordsLength?, if_pos starts]
  simp only [gaps, List.drop_left, leading]
  rw [← List.drop_drop, List.drop_left, List.drop_left]

/-- The further words of a phrase are found again in front of what ends a word, and no others in
their place. -/
theorem wordsLength?_again {words words' : List String} {n : Nat}
    (found : wordsLength? words cs = some n) (same : words'.length = words.length)
    (nonempty : ∀ word ∈ words, word ≠ "") (ends : leadingWord rest = []) :
    wordsLength? words' (cs.take n ++ rest) = wordsLength? words' cs := by
  induction words generalizing words' cs n with
  | nil =>
    rw [List.eq_nil_of_length_eq_zero same, wordsLength?, wordsLength?]
  | cons expected more ih =>
    obtain ⟨expected', more', rfl⟩ := List.exists_cons_of_length_eq_add_one same
    obtain ⟨first, others⟩ := List.forall_mem_cons.mp nonempty
    obtain ⟨gap, word, tail, rfl, blank, letters, behind, gaps, leading⟩ := exists_nextWord cs
    have starts := blank_of_wordsLength? found
    rw [wordsLength?_append _ _ starts gaps leading] at found
    split at found
    · next spelled =>
      obtain ⟨m, later, rfl⟩ := Option.map_eq_some_iff.mp found
      have text : (gap ++ (word ++ tail)).take (gap.length + word.length + m) ++ rest =
          gap ++ (word ++ (tail.take m ++ rest)) := by
        rw [Nat.add_assoc, List.take_length_add_append, List.take_length_add_append,
          List.append_assoc, List.append_assoc]
      have behind' := leadingWord_take_append m behind ends
      have word_ne : word ≠ [] := by
        rintro rfl
        exact first (eq_of_beq spelled).symm
      have gaps' := takeWhile_isGap (tail.take m ++ rest) blank letters word_ne
      have starts' : ((gap ++ (word ++ (tail.take m ++ rest))).head?.any
          fun c => c == ' ' || c == '\t') = true := by
        obtain ⟨w, word, rfl⟩ := List.exists_cons_of_ne_nil word_ne
        cases gap <;> exact starts
      rw [text, wordsLength?_append _ _ starts' gaps' (leadingWord_append letters behind'),
        wordsLength?_append _ _ starts gaps leading,
        ih later (Nat.succ.inj same) others]
    · cases found

/-- A phrase is found again in front of what ends a word. -/
theorem phraseLength_again (first : String) (cs : List Char) (ends : EndsWord rest) :
    phraseLength first (cs.take (phraseLength first cs) ++ rest) = phraseLength first cs := by
  cases found : (continuations (lower first)).findSome? (wordsLength? · cs) with
  | none =>
    have others : (continuations (lower first)).findSome? (wordsLength? · rest) = none :=
      List.findSome?_eq_none_iff.mpr (ends.phrase _)
    simp [phraseLength, found, others]
  | some n =>
    obtain ⟨words, mem, hit⟩ := List.exists_of_findSome?_eq_some found
    obtain ⟨same, -, words_ne⟩ := of_mem_continuations (lower first) words mem
    have again (words' : List String) (mem' : words' ∈ continuations (lower first)) :
        wordsLength? words' (cs.take n ++ rest) = wordsLength? words' cs :=
      wordsLength?_again hit (same words' mem') (fun word h => (words_ne word h).1) ends.word
    have found' : (continuations (lower first)).findSome? (wordsLength? · (cs.take n ++ rest)) =
        some n := by
      rw [← List.head?_filterMap, List.filterMap_congr again, List.head?_filterMap, found]
    simp [phraseLength, found, found']

/-- What a word is: its first character begins one, and it is no keyword. -/
structure StartsWord (c : Char) (word : List Char) : Prop where
  starts : startsWord c = true
  noGlyph : isGlyph c = false
  noDigit : isDigit c = false
  noKeyword : keyword? (lower (String.ofList (c :: word))) = none

/-- The length of a word and of the phrase that it begins, without the first character. -/
def wordLength (c : Char) (cs : List Char) : Nat :=
  (leadingWord cs).length +
    phraseLength (String.ofList (c :: leadingWord cs)) (cs.drop (leadingWord cs).length)

theorem ne_of_startsWord (h : startsWord c = true) {d : Char}
    (mem : d ∈ ['\n', '#', '/', '.', '-', ' ', '\t', '\r']) : c ≠ d := by
  have others : ∀ d ∈ ['\n', '#', '/', '.', '-', ' ', '\t', '\r'], startsWord d = false := by
    intro d mem
    fin_cases mem <;> decide +kernel
  rintro rfl
  rw [others c mem] at h
  cases h

theorem lexeme_of_startsWord (h : StartsWord c (leadingWord cs)) :
    lexeme cur c cs = (.word, wordLength c cs) := by
  have ne {d : Char} := ne_of_startsWord h.starts (d := d)
  have noNumber : startsNumber (c :: cs) = false := by simp [startsNumber, h.noDigit, ne]
  rw [lexeme, if_neg (by simp [ne]), if_neg (by simp [ne]), if_neg (by simp [h.noGlyph]),
    if_neg (by simp [noNumber]), if_neg (by simp [ne]), if_pos h.starts]
  simp only [h.noKeyword, wordLength, List.length_cons, Nat.add_sub_cancel]

/-- What can stand at the front of a text, with the kind and the length of the token that it is. -/
inductive Lexed (c : Char) (cs : List Char) (kind : TokenKind) (n : Nat) : Prop
  | lineBreak : kind = .newline → Lexed c cs kind n
  | comment : kind = .comment → c = '#' ∨ c = '/' ∧ cs.head? = some '/' →
      n = (cs.takeWhile (· != '\n')).length → Lexed c cs kind n
  | glyph : kind ∈ [.dollar, .euro, .pound, .yen, .bitcoin, .glyph] → isGlyph c = true → n = 0 →
      Lexed c cs kind n
  | numeral : kind ∈ [.number, .percent] → Lexed c cs kind n
  | keyword : kind ∈ [.inWord, .ofWord, .modWord] → Lexed c cs kind n
  | word : kind = .word → StartsWord c (leadingWord cs) → n = wordLength c cs → Lexed c cs kind n
  | sign : kind ∈ [.doubleStar, .plus, .minus, .times, .slash, .caret, .leftParen, .rightParen,
      .equals, .comma, .stray] → Lexed c cs kind n

theorem lexed_numeral (cs' : List Char) {n : Nat} : Lexed c cs (numeral cs').1 n := by
  refine .numeral ?_
  rw [numeral_eq]
  split <;> simp

theorem lexed_lexeme (cur : Cursor) (c : Char) (cs : List Char) :
    Lexed c cs (lexeme cur c cs).1 (lexeme cur c cs).2 := by
  unfold lexeme
  split
  · exact .lineBreak rfl
  split
  · next begins => exact .comment rfl (by simpa using begins) rfl
  split
  · next glyph =>
    refine .glyph ?_ glyph rfl
    unfold glyphKind
    split <;> decide
  split
  · exact lexed_numeral _
  split
  · exact lexed_numeral _
  split
  · next noGlyph noNumber _ starts =>
    simp only
    split
    · next found =>
      refine .keyword ?_
      unfold keyword? at found
      split at found <;> cases found <;> simp
    · next none =>
      simp only [startsNumber, Bool.or_eq_true, not_or, Bool.not_eq_true] at noNumber
      refine .word rfl ⟨starts, by simpa using noGlyph, noNumber.1, none⟩ ?_
      simp [wordLength]
  split
  · exact .sign (by decide)
  · refine .sign ?_
    unfold punctuation
    split <;> decide

theorem lexed {n : Nat} (h : lexeme cur c cs = (kind, n)) : Lexed c cs kind n := by
  have front := lexed_lexeme cur c cs
  rw [h] at front
  exact front

theorem startsWord_of_lexeme {n : Nat} (h : lexeme cur c cs = (.word, n)) :
    StartsWord c (leadingWord cs) ∧ n = wordLength c cs := by
  cases lexed h with
  | word _ starts length => exact ⟨starts, length⟩
  | lineBreak other | comment other _ _ => cases other
  | glyph other _ _ | numeral other | keyword other | sign other => exact absurd other (by decide)

/-- A symbol is one character. -/
theorem glyph_of_lexeme {n : Nat} (h : lexeme cur c cs = (kind, n))
    (symbol : kind.isSymbol = true) : isGlyph c = true ∧ n = 0 := by
  have other {kinds : List TokenKind} (mem : kind ∈ kinds)
      (none : ∀ kind ∈ kinds, kind.isSymbol = false) : False := by
    rw [none kind mem] at symbol
    cases symbol
  cases lexed h with
  | glyph _ glyph length => exact ⟨glyph, length⟩
  | lineBreak eq | comment eq _ _ | word eq _ _ =>
    rw [eq] at symbol
    cases symbol
  | numeral mem | keyword mem | sign mem => exact (other mem (by decide)).elim

/-- A comment begins with its sign and goes on to the end of the line. -/
theorem comment_of_lexeme {n : Nat} (h : lexeme cur c cs = (.comment, n)) :
    (c = '#' ∨ c = '/' ∧ cs.head? = some '/') ∧ n = (cs.takeWhile (· != '\n')).length := by
  cases lexed h with
  | comment _ begins length => exact ⟨begins, length⟩
  | lineBreak other | word other _ _ => cases other
  | glyph other _ _ | numeral other | keyword other | sign other => exact absurd other (by decide)

/-- Some characters have been scanned as one word. -/
def IsWord (cs : List Char) : Prop :=
  ∃ cur c ds rest, cs = c :: ds ∧ lexeme cur c (ds ++ rest) = (.word, ds.length)

/-- A word is scanned again wherever it ends. -/
theorem IsWord.scans (h : IsWord cs) (ends : EndsWord rest) :
    Scans opens cs rest [(.word, String.ofList cs)] := by
  obtain ⟨cur', c, ds, rest', rfl, found⟩ := h
  obtain ⟨starts, length⟩ := startsWord_of_lexeme found
  -- The characters are a word and the rest of a phrase that it begins, if there is one.
  have text : leadingWord (ds ++ rest') ++ (ds ++ rest').dropWhile continuesWord = ds ++ rest' :=
    List.takeWhile_append_dropWhile
  have letters : ∀ c ∈ leadingWord (ds ++ rest'), continuesWord c = true :=
    fun _ => List.mem_takeWhile_imp
  have behind := leadingWord_dropWhile (ds ++ rest')
  rw [wordLength] at length
  generalize leadingWord (ds ++ rest') = word at *
  generalize (ds ++ rest').dropWhile continuesWord = tail at *
  rw [← text, List.drop_left] at length
  let n := phraseLength (String.ofList (c :: word)) tail
  have pieces : ds = word ++ tail.take n := by
    have front : ds = (ds ++ rest').take ds.length := List.take_left.symm
    rw [front, ← text, length, List.take_length_add_append]
  have leading : leadingWord (ds ++ rest) = word := by
    rw [pieces, List.append_assoc]
    exact leadingWord_append letters (leadingWord_take_append n behind ends.word)
  refine .lexeme ?_ fun cur _ => ?_
  · have ne {d : Char} := ne_of_startsWord starts.starts (d := d)
    simp [isGap, ne]
  · have starts' : StartsWord c (leadingWord (ds ++ rest)) := by rwa [leading]
    have again := phraseLength_again (String.ofList (c :: word)) tail ends
    rw [lexeme_of_startsWord starts', wordLength, leading]
    conv_lhs => rw [pieces, List.append_assoc, List.drop_left, again]
    rw [length]

theorem IsWord.scansText {text : String} (h : IsWord text.toList) (opens : Bool)
    (ends : EndsWord rest) : Scans opens text.toList rest [(.word, text)] := by
  have scans : Scans opens text.toList rest [(.word, String.ofList text.toList)] := h.scans ends
  rwa [String.ofList_toList] at scans

/-- A word begins with a character that begins no number. -/
theorem IsWord.first (h : IsWord cs) :
    ∃ c ds, cs = c :: ds ∧ startsWord c = true ∧ isDigit c = false := by
  obtain ⟨cur, c, ds, rest, rfl, found⟩ := h
  obtain ⟨starts, -⟩ := startsWord_of_lexeme found
  exact ⟨c, ds, rfl, starts.starts, starts.noDigit⟩

theorem isWord_of_lexeme (h : lexeme {} c cs = (.word, cs.length)) : IsWord (c :: cs) :=
  ⟨{}, c, cs, [], rfl, by rwa [List.append_nil]⟩

/-- A keyword is scanned wherever it ends. -/
theorem Scans.keyword (starts : startsWord c = true) (noGlyph : isGlyph c = false)
    (noDigit : isDigit c = false) (letters : ∀ c ∈ cs, continuesWord c = true)
    (found : keyword? (lower (String.ofList (c :: cs))) = some kind)
    (ends : leadingWord rest = []) :
    Scans opens (c :: cs) rest [(kind, String.ofList (c :: cs))] := by
  have ne {d : Char} := ne_of_startsWord starts (d := d)
  have noNumber : startsNumber (c :: (cs ++ rest)) = false := by simp [startsNumber, noDigit, ne]
  refine .lexeme (by simp [isGap, ne]) fun cur _ => ?_
  rw [Token.lexeme, if_neg (by simp [ne]), if_neg (by simp [ne]), if_neg (by simp [noGlyph]),
    if_neg (by simp [noNumber]), if_neg (by simp [ne]), if_pos starts,
    leadingWord_append letters ends]
  simp only [found, List.length_cons, Nat.add_sub_cancel]

theorem scans_in (ends : leadingWord rest = []) :
    Scans opens ['i', 'n'] rest [(.inWord, "in")] :=
  .keyword (by decide +kernel) (by decide +kernel) (by decide +kernel)
    (List.forall_mem_singleton.mpr (by decide +kernel)) (by decide +kernel) ends

theorem scans_of (ends : leadingWord rest = []) :
    Scans opens ['o', 'f'] rest [(.ofWord, "of")] :=
  .keyword (by decide +kernel) (by decide +kernel) (by decide +kernel)
    (List.forall_mem_singleton.mpr (by decide +kernel)) (by decide +kernel) ends

end LineCalc.Token
