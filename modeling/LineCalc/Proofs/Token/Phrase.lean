import LineCalc.Proofs.Token.Written

/-!
# The longest phrase

A word is all the letters, numerals and underscores that follow each other. If words of a phrase
that it begins come behind it on the same line, all of them and each as a whole word, then they
belong to its token; otherwise the token is the word alone, and what was looked at behind it is
scanned as if it had not been.

Results:
1. `wordsLength?_eq_some_iff`: the words of a phrase are found where they stand, and only there.
2. `Continues.unique`: of phrases of as many words one at most stands at a place.
3. `phraseLength_outcome`: what is found behind a first word is the longest phrase that it begins.
4. `longest_phrase`: what this says of the tokens of a text.
-/

namespace LineCalc.Token

open LineCalc.Text

variable {cs piece piece' rest rest' : List Char} {words words' : List String} {n : Nat}

/-! ## Words of a phrase -/

/-- In front of `rest`, `piece` is made of the further words of a phrase. Each comes behind blanks,
the first of which is a space or a tab, is a whole word, and is the one expected in lower case. -/
inductive Continues : List String → List Char → List Char → Prop
  | done {rest : List Char} : Continues [] [] rest
  | word {blank : Char} {gap word piece rest : List Char} {more : List String} :
      blank = ' ' ∨ blank = '\t' → (∀ c ∈ gap, isGap c = true) →
      (∀ c ∈ word, continuesWord c = true) → leadingWord (piece ++ rest) = [] →
      Continues more piece rest →
      Continues (lower (String.ofList word) :: more) (blank :: gap ++ (word ++ piece)) rest

theorem isGap_of_blank {blank : Char} (h : blank = ' ' ∨ blank = '\t') : isGap blank = true := by
  rcases h with rfl | rfl <;> rfl

theorem isGap_of_mem_blanks {blank : Char} {gap : List Char} (starts : blank = ' ' ∨ blank = '\t')
    (blanks : ∀ c ∈ gap, isGap c = true) : ∀ c ∈ blank :: gap, isGap c = true :=
  List.forall_mem_cons.mpr ⟨isGap_of_blank starts, blanks⟩

theorem ne_nil_of_lower {word : List Char} (h : lower (String.ofList word) ≠ "") : word ≠ [] := by
  rintro rfl
  exact h rfl

theorem Continues.length (h : Continues words piece rest) (nonempty : ∀ word ∈ words, word ≠ "") :
    wordsLength? words (piece ++ rest) = some piece.length := by
  induction h with
  | done => rfl
  | @word blank gap word piece rest more starts blanks letters ends _ ih =>
    obtain ⟨some, others⟩ := List.forall_mem_cons.mp nonempty
    have gaps := takeWhile_isGap (piece ++ rest) (isGap_of_mem_blanks starts blanks)
      letters (ne_nil_of_lower some)
    have first : ((blank :: gap ++ (word ++ (piece ++ rest))).head?.any
        fun c => c == ' ' || c == '\t') = true := by
      simpa using starts
    rw [List.append_assoc, List.append_assoc, wordsLength?_append _ _ first gaps
      (leadingWord_append letters ends), if_pos BEq.rfl, ih others, Option.map_some]
    simp only [List.length_append]
    congr 1
    omega

/-- The words of a phrase are found where they stand. -/
theorem wordsLength?_eq_some_iff (nonempty : ∀ word ∈ words, word ≠ "") :
    wordsLength? words cs = some n ↔
      ∃ piece rest, cs = piece ++ rest ∧ piece.length = n ∧ Continues words piece rest := by
  constructor
  · intro found
    induction words generalizing cs n with
    | nil =>
      cases found
      exact ⟨[], cs, rfl, rfl, .done⟩
    | cons expected more ih =>
      obtain ⟨some, others⟩ := List.forall_mem_cons.mp nonempty
      obtain ⟨gap, word, tail, rfl, blanks, letters, ends, gaps, leading⟩ := exists_nextWord cs
      have first := blank_of_wordsLength? found
      rw [wordsLength?_append _ _ first gaps leading] at found
      split at found
      · next spelled =>
        obtain ⟨m, later, rfl⟩ := Option.map_eq_some_iff.mp found
        obtain ⟨piece, rest, rfl, rfl, continues⟩ := ih others later
        cases eq_of_beq spelled
        -- The text begins with a blank, so the blanks before the word are not empty.
        cases gap with
        | nil =>
          obtain ⟨c, word, rfl⟩ := List.exists_cons_of_ne_nil (ne_nil_of_lower some)
          have blank : isGap c = true := isGap_of_blank (by simpa using first)
          rw [isGap_of_continuesWord (letters c List.mem_cons_self)] at blank
          cases blank
        | cons blank gap =>
          refine ⟨blank :: gap ++ (word ++ piece), rest, by simp, ?_, ?_⟩
          · simp only [List.length_append]
            omega
          · exact .word (by simpa using first) (fun c mem => blanks c (List.mem_cons_of_mem _ mem))
              letters ends continues
      · cases found
  · rintro ⟨piece, rest, rfl, rfl, continues⟩
    exact continues.length nonempty

/-- Of phrases of as many words one at most stands at a place. -/
theorem Continues.unique (h : Continues words piece rest) (h' : Continues words' piece' rest')
    (same : piece ++ rest = piece' ++ rest') (count : words.length = words'.length)
    (nonempty : ∀ word ∈ words, word ≠ "") (nonempty' : ∀ word ∈ words', word ≠ "") :
    words = words' ∧ piece = piece' := by
  induction h generalizing words' piece' rest' with
  | done =>
    cases List.eq_nil_of_length_eq_zero count.symm
    cases h'
    exact ⟨rfl, rfl⟩
  | @word blank gap word piece rest more starts blanks letters ends continues ih =>
    cases h' with
    | done => cases count
    | @word blank' gap' word' piece' rest' more' starts' blanks' letters' ends' continues' =>
      obtain ⟨some, others⟩ := List.forall_mem_cons.mp nonempty
      obtain ⟨some', others'⟩ := List.forall_mem_cons.mp nonempty'
      rw [List.append_assoc, List.append_assoc, List.append_assoc, List.append_assoc] at same
      have gaps : blank :: gap = blank' :: gap' := by
        have left := takeWhile_isGap (piece ++ rest) (isGap_of_mem_blanks starts blanks)
          letters (ne_nil_of_lower some)
        rw [same, takeWhile_isGap _ (isGap_of_mem_blanks starts' blanks') letters'
          (ne_nil_of_lower some')] at left
        exact left.symm
      rw [gaps, List.append_cancel_left_eq] at same
      have word_eq : word = word' := by
        have left := leadingWord_append letters ends
        rw [same, leadingWord_append letters' ends'] at left
        exact left.symm
      rw [word_eq, List.append_cancel_left_eq] at same
      obtain ⟨rfl, rfl⟩ := ih continues' same (Nat.succ.inj count) others others'
      rw [gaps, word_eq]
      exact ⟨rfl, rfl⟩

/-! ## The longest phrase -/

/-- In front of `rest`, `piece` is made of the longest of some sequences of words that stand there,
or is empty if none does. -/
def LongestOf (table : List (List String)) (piece rest : List Char) : Prop :=
  (∃ words ∈ table, Continues words piece rest ∧ ∀ words' ∈ table, ∀ piece' rest',
    piece' ++ rest' = piece ++ rest → Continues words' piece' rest' →
      words'.length ≤ words.length ∧ piece'.length ≤ piece.length) ∨
  (piece = [] ∧ ∀ words ∈ table, ∀ piece' rest', piece' ++ rest' = rest →
    ¬Continues words piece' rest')

/-- What is found behind a first word is the longest phrase that it begins. -/
theorem phraseLength_outcome (first : String) (cs : List Char) : ∃ piece rest, cs = piece ++ rest ∧
    phraseLength first cs = piece.length ∧ LongestOf (continuations (lower first)) piece rest := by
  have words_ne : ∀ words ∈ continuations (lower first), ∀ word ∈ words, word ≠ "" :=
    fun words mem word h => ((of_mem_continuations _ words mem).2.2 word h).1
  rw [phraseLength]
  cases found : (continuations (lower first)).findSome? (wordsLength? · cs) with
  | none =>
    refine ⟨[], cs, rfl, rfl, .inr ⟨rfl, ?_⟩⟩
    rintro words mem piece' rest' rfl continues
    have missed := List.findSome?_eq_none_iff.mp found words mem
    rw [continues.length (words_ne words mem)] at missed
    cases missed
  | some n =>
    obtain ⟨words, mem, hit⟩ := List.exists_of_findSome?_eq_some found
    obtain ⟨piece, rest, rfl, rfl, continues⟩ :=
      (wordsLength?_eq_some_iff (words_ne words mem)).mp hit
    refine ⟨piece, rest, rfl, rfl, .inl ⟨words, mem, continues, ?_⟩⟩
    intro words' mem' piece' rest' same continues'
    -- All phrases of one first word are of as many words, so this is the same one.
    have count := (of_mem_continuations _ words' mem').1 words mem
    obtain ⟨rfl, rfl⟩ := continues.unique continues' same.symm count (words_ne words mem)
      (words_ne words' mem')
    exact ⟨Nat.le_refl _, Nat.le_refl _⟩

/-! ## The words of a text -/

/-- A word may begin with the character: it is a letter or an underscore, and neither a digit nor a
symbol by itself. -/
def BeginsWord (c : Char) : Prop := startsWord c = true ∧ isGlyph c = false ∧ isDigit c = false

/-- At the place of a token stands a word, all the word characters there, and the token is this word
with the longest phrase that it begins. The tokens after it are scanned from where it ends. -/
def LongestWord (text : String) (t : Token) (back : List Token) : Prop :=
  let here := text.toList.drop t.pos
  let word := leadingWord here
  ∃ piece rest, here = word ++ (piece ++ rest) ∧ t.text = String.ofList (word ++ piece) ∧
    LongestOf (continuations (lower (String.ofList word))) piece rest ∧
    back = lexFrom ((placeOf text t).advance (word ++ piece)) rest

theorem leadingWord_cons {c : Char} (starts : startsWord c = true) (cs : List Char) :
    leadingWord (c :: cs) = c :: leadingWord cs :=
  List.takeWhile_cons_of_pos (startsWord_continuesWord starts)

/-- What is cut off as a word is the word with the longest phrase that it begins. -/
theorem wordLength_outcome (c : Char) (cs : List Char) : ∃ piece rest,
    cs = leadingWord cs ++ (piece ++ rest) ∧ cs.take (wordLength c cs) = leadingWord cs ++ piece ∧
    cs.drop (wordLength c cs) = rest ∧
    LongestOf (continuations (lower (String.ofList (c :: leadingWord cs)))) piece rest := by
  have text : leadingWord cs ++ cs.dropWhile continuesWord = cs := List.takeWhile_append_dropWhile
  obtain ⟨piece, rest, behind, length, longest⟩ :=
    phraseLength_outcome (String.ofList (c :: leadingWord cs)) (cs.drop (leadingWord cs).length)
  rw [wordLength, length]
  generalize leadingWord cs = word at *
  rw [← text, List.drop_left] at behind
  rw [behind] at text
  refine ⟨piece, rest, text.symm, ?_, ?_, longest⟩
  · rw [← text, List.take_length_add_append, List.take_left]
  · rw [← text, ← List.drop_drop, List.drop_left, List.drop_left]

/-- A token of a text is a word exactly where a word may begin that is no keyword, and then it is
all of the word with the longest phrase that the word begins, whose further words stand behind it on
the same line. If none does then it is the word alone. Either way the tokens after it are scanned
from where it ends. -/
theorem longest_phrase {text : String} {front back : List Token} {t : Token}
    (h : ofText text = front ++ t :: back) :
    let here := text.toList.drop t.pos
    (t.kind = .word ↔ (∃ c ∈ here.head?, BeginsWord c) ∧
      keyword? (lower (String.ofList (leadingWord here))) = none) ∧
    (t.kind = .word → LongestWord text t back) := by
  intro here
  obtain ⟨tokens, visible, -⟩ := ofText_split h
  unfold LongestWord
  generalize placeOf text t = cur at *
  change lexFrom cur here = t :: back at tokens
  change ∀ c ∈ here.head?, isGap c = false at visible
  have same : text.toList.drop t.pos = here := rfl
  rw [same]
  match here with
  | [] =>
    have finish := finish_of_lexFrom tokens
    rw [finish]
    exact ⟨iff_of_false nofun (by simp), nofun⟩
  | c :: cs =>
    obtain ⟨more, cut, literal, behind⟩ := lexeme_of_lexFrom (visible c rfl) tokens
    refine ⟨⟨fun word => ?_, ?_⟩, fun word => ?_⟩
    · rw [word] at cut
      obtain ⟨starts, -⟩ := startsWord_of_lexeme cut
      rw [leadingWord_cons starts.starts]
      exact ⟨⟨c, rfl, starts.starts, starts.noGlyph, starts.noDigit⟩, starts.noKeyword⟩
    · rintro ⟨⟨_, ⟨⟩, starts, noGlyph, noDigit⟩, noKeyword⟩
      rw [leadingWord_cons starts] at noKeyword
      rw [lexeme_of_startsWord ⟨starts, noGlyph, noDigit, noKeyword⟩] at cut
      exact (congrArg Prod.fst cut).symm
    · rw [word] at cut
      obtain ⟨starts, length⟩ := startsWord_of_lexeme cut
      obtain ⟨piece, rest, all, taken, left, longest⟩ := wordLength_outcome c cs
      rw [length] at literal behind
      dsimp only
      rw [leadingWord_cons starts.starts]
      refine ⟨piece, rest, congrArg (c :: ·) all, ?_, longest, ?_⟩
      · rw [literal, taken, List.cons_append]
      · rw [behind, taken, left, List.cons_append]

/-- Two of the three words of a phrase are words by themselves. -/
theorem longest_phrase_exKong :
    let first : Token := ⟨.word, "hong", 0, 1, 1⟩
    let others : List Token := [⟨.word, "kong", 5, 1, 6⟩, ⟨.finish, "", 9, 1, 10⟩]
    ofText "hong kong" = [] ++ first :: others ∧ LongestWord "hong kong" first others := by
  intro first others
  have split : ofText "hong kong" = [] ++ first :: others := by
    have hong : lexeme {} 'h' "ong kong".toList = (.word, 3) := by decide +kernel
    have kong : lexeme ⟨5, 1, 6, some 'g'⟩ 'k' "ong".toList = (.word, 3) := by decide +kernel
    calc lexFrom {} "hong kong".toList
      _ = first :: lexFrom ⟨4, 1, 5, some 'g'⟩ " kong".toList := lexFrom_of_lexeme rfl hong
      _ = first :: lexFrom ⟨5, 1, 6, some 'g'⟩ "kong".toList := congrArg _ (lexFrom_of_isGap rfl)
      _ = first :: ⟨.word, "kong", 5, 1, 6⟩ :: lexFrom ⟨9, 1, 10, some 'g'⟩ [] :=
        congrArg _ (lexFrom_of_lexeme rfl kong)
      _ = first :: others := by rw [lexFrom]
  exact ⟨split, (longest_phrase split).2 rfl⟩

end LineCalc.Token
