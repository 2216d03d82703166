import LineCalc.Proofs.Token.Cover
import LineCalc.Text.Blank

/-!
# Tokens line by line

What is scanned at a place of a line depends on that line alone. Whatever looks ahead (for group
commas, powers of ten, further words of a phrase, the end of a comment) stops at a line break, and
what looks back from a minus sign finds the line break before it, after which an operand may begin
as at the start of a text. So the tokens of a text are those of its lines, with a token for each
line break between them.

Results:
1. `lexeme_lineBreak`: the first token of a line is the same whatever lines come after it.
2. `lexFrom_moved`: from two places that differ in what is before their line only, the same tokens
   are scanned.
3. `tokens_of_lines`: the tokens of two texts with a line break between them, and of all the lines
   of a text.
-/

namespace LineCalc.Token

open LineCalc.Text

variable {cur cur' : Cursor} {c : Char} {cs ds : List Char} {p : Char → Bool}

/-! ## Looking ahead -/

theorem takeWhile_lineBreak (stops : p '\n' = false) :
    (cs ++ '\n' :: ds).takeWhile p = cs.takeWhile p := by
  induction cs with
  | nil => simp [stops]
  | cons c cs ih => simp only [List.cons_append, List.takeWhile_cons, ih]

theorem isDigit_lineBreak : isDigit '\n' = false := by decide

theorem continuesWord_lineBreak : continuesWord '\n' = false := by decide

@[simp] theorem startsDigit_lineBreak : startsDigit (cs ++ '\n' :: ds) = startsDigit cs := by
  cases cs with
  | nil => exact isDigit_lineBreak
  | cons c cs => rfl

@[simp] theorem startsNumber_lineBreak : startsNumber (cs ++ '\n' :: ds) = startsNumber cs := by
  cases cs with
  | nil => simp [startsNumber, isDigit_lineBreak]
  | cons c cs => simp [startsNumber]

@[simp] theorem startsGroup_lineBreak : startsGroup (cs ++ '\n' :: ds) = startsGroup cs := by
  match cs with
  | [] => cases ds with
    | nil => rfl
    | cons d ds => cases ds <;> simp [startsGroup, isDigit_lineBreak]
  | [a] => cases ds <;> simp [startsGroup, isDigit_lineBreak]
  | [a, b] => simp [startsGroup, isDigit_lineBreak]
  | a :: b :: c :: cs => simp [startsGroup]

theorem mantissaLength_lineBreak (afterPoint : Bool) :
    mantissaLength afterPoint (cs ++ '\n' :: ds) = mantissaLength afterPoint cs := by
  induction cs generalizing afterPoint with
  | nil => simp [mantissaLength, isDigit_lineBreak]
  | cons c cs ih =>
    simp only [List.cons_append, mantissaLength, startsGroup_lineBreak, startsDigit_lineBreak, ih]

theorem mantissaLength_le (afterPoint : Bool) (cs : List Char) :
    mantissaLength afterPoint cs ≤ cs.length := by
  induction cs generalizing afterPoint with
  | nil => exact Nat.le_refl 0
  | cons c cs ih =>
    rw [mantissaLength, List.length_cons]
    split
    · exact Nat.succ_le_succ (ih _)
    split
    · exact Nat.succ_le_succ (ih _)
    split
    · exact Nat.succ_le_succ (ih _)
    · exact Nat.zero_le _

theorem digitsLength_lineBreak : digitsLength (cs ++ '\n' :: ds) = digitsLength cs := by
  rw [digitsLength, takeWhile_lineBreak isDigit_lineBreak, digitsLength]

theorem digitsLength_le (cs : List Char) : digitsLength cs ≤ cs.length :=
  (List.takeWhile_sublist _).length_le

theorem powerLength_lineBreak : powerLength (cs ++ '\n' :: ds) = powerLength cs := by
  match cs with
  | [] => simp [powerLength]
  | [e] => simp [powerLength, isDigit_lineBreak]
  | e :: sign :: rest =>
    have digits : digitsLength (sign :: rest ++ '\n' :: ds) = digitsLength (sign :: rest) :=
      digitsLength_lineBreak
    rw [List.cons_append] at digits
    simp only [List.cons_append, powerLength, digits, digitsLength_lineBreak,
      startsDigit_lineBreak]

theorem powerLength_le (cs : List Char) : powerLength cs ≤ cs.length := by
  unfold powerLength
  split
  · next e cs =>
    split
    · split
      · next sign rest =>
        have all := digitsLength_le (sign :: rest)
        have unsigned := digitsLength_le rest
        simp only [List.length_cons] at *
        split
        · omega
        · split <;> omega
      · exact Nat.zero_le _
    · exact Nat.zero_le _
  · exact Nat.zero_le _

theorem numberLength_le (cs : List Char) : numberLength cs ≤ cs.length := by
  have mantissa := mantissaLength_le false cs
  have power := powerLength_le (cs.drop (mantissaLength false cs))
  rw [List.length_drop] at power
  rw [numberLength]
  omega

/-- What is left of a line is followed by the same line break and the same lines. -/
theorem drop_lineBreak {n : Nat} (h : n ≤ cs.length) :
    (cs ++ '\n' :: ds).drop n = cs.drop n ++ '\n' :: ds := List.drop_append_of_le_length h

theorem numberLength_lineBreak : numberLength (cs ++ '\n' :: ds) = numberLength cs := by
  rw [numberLength, mantissaLength_lineBreak, drop_lineBreak (mantissaLength_le false cs),
    powerLength_lineBreak, numberLength]

theorem numeral_eq (cs : List Char) :
    numeral cs = if (cs.drop (numberLength cs)).head? = some '%' then
      (.percent, numberLength cs + 1) else (.number, numberLength cs) := by
  unfold numeral
  simp only
  rw [← numberLength]
  split
  · next sign => simp [sign]
  · next other =>
    rw [if_neg]
    intro sign
    obtain ⟨rest, eq⟩ := List.head?_eq_some_iff.mp sign
    exact other rest eq

theorem numeral_lineBreak : numeral (cs ++ '\n' :: ds) = numeral cs := by
  rw [numeral_eq, numeral_eq, numberLength_lineBreak, drop_lineBreak (numberLength_le cs)]
  cases cs.drop (numberLength cs) <;> rfl

theorem numeral_le (cs : List Char) : (numeral cs).2 ≤ cs.length := by
  have number := numberLength_le cs
  rw [numeral_eq]
  split
  · next sign =>
    have more : 0 < (cs.drop (numberLength cs)).length := by
      obtain ⟨rest, eq⟩ := List.head?_eq_some_iff.mp sign
      simp [eq]
    rw [List.length_drop] at more
    simp only
    omega
  · exact number

theorem leadingWord_lineBreak : leadingWord (cs ++ '\n' :: ds) = leadingWord cs :=
  takeWhile_lineBreak continuesWord_lineBreak

theorem leadingWord_le (cs : List Char) : (leadingWord cs).length ≤ cs.length :=
  (List.takeWhile_sublist _).length_le

theorem gapThenWord_le (cs : List Char) :
    (cs.takeWhile isGap).length + (leadingWord (cs.drop (cs.takeWhile isGap).length)).length ≤
      cs.length := by
  have gap : (cs.takeWhile isGap).length ≤ cs.length := (List.takeWhile_sublist _).length_le
  have word := leadingWord_le (cs.drop (cs.takeWhile isGap).length)
  rw [List.length_drop] at word
  omega

theorem wordsLength?_lineBreak (words : List String) :
    wordsLength? words (cs ++ '\n' :: ds) = wordsLength? words cs := by
  induction words generalizing cs with
  | nil => rfl
  | cons expected more ih =>
    have head : ((cs ++ '\n' :: ds).head?.any fun c => c == ' ' || c == '\t') =
        cs.head?.any fun c => c == ' ' || c == '\t' := by
      cases cs <;> rfl
    have gap : (cs ++ '\n' :: ds).takeWhile isGap = cs.takeWhile isGap :=
      takeWhile_lineBreak (by decide)
    have le := gapThenWord_le cs
    simp only [wordsLength?, head, gap]
    rw [drop_lineBreak (Nat.le_of_add_right_le le), leadingWord_lineBreak, drop_lineBreak le, ih]

theorem wordsLength?_le {words : List String} {n : Nat} (h : wordsLength? words cs = some n) :
    n ≤ cs.length := by
  induction words generalizing cs n with
  | nil =>
    cases h
    exact Nat.zero_le _
  | cons expected more ih =>
    have le := gapThenWord_le cs
    simp only [wordsLength?] at h
    split at h
    · split at h
      · obtain ⟨m, rest, rfl⟩ := Option.map_eq_some_iff.mp h
        have later := ih rest
        rw [List.length_drop] at later
        omega
      · cases h
    · cases h

theorem phraseLength_lineBreak (first : String) :
    phraseLength first (cs ++ '\n' :: ds) = phraseLength first cs := by
  simp only [phraseLength, wordsLength?_lineBreak]

theorem phraseLength_le (first : String) (cs : List Char) : phraseLength first cs ≤ cs.length := by
  rw [phraseLength]
  cases found : (continuations (lower first)).findSome? (wordsLength? · cs) with
  | none => exact Nat.zero_le _
  | some n =>
    obtain ⟨words, -, eq⟩ := List.exists_of_findSome?_eq_some found
    exact wordsLength?_le eq

/-- The first token of a line is the same whatever lines come after it. -/
theorem lexeme_lineBreak : lexeme cur c (cs ++ '\n' :: ds) = lexeme cur c cs := by
  have next (d : Char) (ne : d ≠ '\n') :
      ((cs ++ '\n' :: ds).head? == some d) = (cs.head? == some d) := by
    cases cs with
    | nil => simp [ne.symm]
    | cons => rfl
  have comment : (cs ++ '\n' :: ds).takeWhile (· != '\n') = cs.takeWhile (· != '\n') :=
    takeWhile_lineBreak rfl
  have starts : startsNumber (c :: cs ++ '\n' :: ds) = startsNumber (c :: cs) :=
    startsNumber_lineBreak
  have number : numeral (c :: cs ++ '\n' :: ds) = numeral (c :: cs) := numeral_lineBreak
  rw [List.cons_append] at starts number
  simp only [lexeme, next '/' (by decide), next '*' (by decide), comment, starts, number,
    startsNumber_lineBreak, numeral_lineBreak, leadingWord_lineBreak, List.length_cons,
    Nat.add_sub_cancel, drop_lineBreak (leadingWord_le cs), phraseLength_lineBreak]

/-- A token ends with its text at the latest. -/
theorem lexeme_le (cur : Cursor) (c : Char) (cs : List Char) : (lexeme cur c cs).2 ≤ cs.length := by
  unfold lexeme
  split
  · exact Nat.zero_le _
  split
  · exact (List.takeWhile_sublist _).length_le
  split
  · exact Nat.zero_le _
  split
  · have le := numeral_le (c :: cs)
    rw [List.length_cons] at le
    exact Nat.sub_le_of_le_add le
  split
  · exact numeral_le cs
  split
  · have word := leadingWord_le cs
    have phrase := phraseLength_le (String.ofList (c :: leadingWord cs))
      (cs.drop (leadingWord cs).length)
    rw [List.length_drop] at phrase
    simp only [List.length_cons, Nat.add_sub_cancel]
    split <;> simp only <;> omega
  split
  · next double =>
    simp only [Bool.and_eq_true, beq_iff_eq] at double
    obtain ⟨rest, rfl⟩ := List.head?_eq_some_iff.mp double.2
    simp
  · exact Nat.zero_le _

/-! ## Places moved by what comes before -/

/-- A token at a place that is some characters and line breaks further on. -/
def moved (chars breaks : Nat) (t : Token) : Token :=
  { t with pos := t.pos + chars, line := t.line + breaks }

/-- A second place is some characters and line breaks further on, in the same column, and what comes there
is scanned alike: the last character before it is the same, or it is a line break where there is
none before the first place. -/
structure Cursor.MovesTo (cur cur' : Cursor) (chars breaks : Nat) : Prop where
  pos : cur'.pos = cur.pos + chars
  line : cur'.line = cur.line + breaks
  col : cur'.col = cur.col
  last : cur'.last = cur.last ∨ cur.last = none ∧ cur'.last = some '\n'

variable {chars breaks : Nat}

namespace Cursor.MovesTo

theorem opensOperand (h : cur.MovesTo cur' chars breaks) :
    cur'.opensOperand = cur.opensOperand := by
  rcases h.last with same | ⟨start, lineBreak⟩
  · rw [Cursor.opensOperand, same, Cursor.opensOperand]
  · rw [Cursor.opensOperand, lineBreak, Cursor.opensOperand, start]
    rfl

theorem step (h : cur.MovesTo cur' chars breaks) (c : Char) :
    (cur.step c).MovesTo (cur'.step c) chars breaks := by
  refine ⟨?_, ?_, ?_, ?_⟩
  · simp only [Cursor.step, h.pos]
    omega
  · simp only [Cursor.step, h.line]
    split <;> omega
  · simp only [Cursor.step, h.col]
  · simp only [Cursor.step]
    split
    · exact h.last
    · exact .inl rfl

theorem advance (h : cur.MovesTo cur' chars breaks) (cs : List Char) :
    (cur.advance cs).MovesTo (cur'.advance cs) chars breaks := by
  induction cs generalizing cur cur' with
  | nil => exact h
  | cons c cs ih => exact ih (h.step c)

theorem lexeme (h : cur.MovesTo cur' chars breaks) : lexeme cur' c cs = lexeme cur c cs := by
  simp only [Token.lexeme, h.opensOperand]

theorem token (h : cur.MovesTo cur' chars breaks) (kind : TokenKind) (text : String) :
    (⟨kind, text, cur'.pos, cur'.line, cur'.col⟩ : Token) =
      moved chars breaks ⟨kind, text, cur.pos, cur.line, cur.col⟩ := by
  rw [moved, h.pos, h.line, h.col]

end Cursor.MovesTo

/-- From a place further on the same tokens are scanned, further on. -/
theorem lexFrom_moved (h : cur.MovesTo cur' chars breaks) :
    lexFrom cur' cs = (lexFrom cur cs).map (moved chars breaks) := by
  fun_induction lexFrom cur cs generalizing cur' with
  | case1 cur =>
    rw [lexFrom, h.token]
    rfl
  | case2 cur c cs gap ih =>
    rw [lexFrom_of_isGap gap]
    exact ih (h.step c)
  | case3 cur c cs visible kind more eq text =>
    rename_i ih
    rw [lexFrom_of_lexeme (by simpa using visible) (h.lexeme.trans eq), h.token,
      ih (h.advance text)]
    rfl

/-! ## Lines put together -/

/-- The mark of the end of a text at a place. -/
def endAt (cur : Cursor) : Token := ⟨.finish, "", cur.pos, cur.line, cur.col⟩

/-- The token of a line break at a place. -/
def lineBreakAt (cur : Cursor) : Token := ⟨.newline, "\n", cur.pos, cur.line, cur.col⟩

/-- The place after a text. -/
def placeAfter (text : String) : Cursor := Cursor.advance {} text.toList

/-- The tokens of a text with others after a line break. -/
def ofTextThen (text : String) (others : List Token) : List Token :=
  (ofText text).dropLast ++ lineBreakAt (placeAfter text) ::
    others.map (moved (text.length + 1) (1 + text.toList.count '\n'))

/-- The tokens of lines, which are scanned one by one. -/
def ofLines : List String → List Token
  | [] => []
  | [line] => ofText line
  | line :: rest => ofTextThen line (ofLines rest)

/-- What is scanned before a line break ends there, and what comes after it is scanned from the
start of the next line. -/
theorem lexFrom_lineBreak (cur : Cursor) (cs ds : List Char) :
    ∃ front, lexFrom cur cs = front ++ [endAt (cur.advance cs)] ∧
      lexFrom cur (cs ++ '\n' :: ds) = front ++ lineBreakAt (cur.advance cs) ::
        lexFrom ((cur.advance cs).step '\n') ds := by
  fun_induction lexFrom cur cs with
  | case1 cur =>
    have first : lexeme cur '\n' ds = (.newline, 0) := if_pos rfl
    refine ⟨[], rfl, ?_⟩
    rw [List.nil_append, lexFrom_of_lexeme (by decide) first]
    rfl
  | case2 cur c cs gap ih =>
    rw [List.cons_append, lexFrom_of_isGap gap]
    exact ih
  | case3 cur c cs visible kind more eq text =>
    rename_i ih
    obtain ⟨front, alone, followed⟩ := ih
    have le : more ≤ cs.length := by simpa [eq] using lexeme_le cur c cs
    have all : cur.advance (c :: cs) = (cur.advance text).advance (cs.drop more) := by
      rw [← Cursor.advance_append, List.cons_append, List.take_append_drop]
    let first : Token := ⟨kind, String.ofList text, cur.pos, cur.line, cur.col⟩
    refine ⟨first :: front, ?_, ?_⟩
    · rw [alone, all]
      rfl
    · rw [List.cons_append, lexFrom_of_lexeme (by simpa using visible)
        (lexeme_lineBreak.trans eq), List.take_append_of_le_length le, drop_lineBreak le, followed,
        all]
      rfl

theorem isAfter_placeAfter (text : String) : (placeAfter text).IsAfter text.toList :=
  Cursor.isAfter_start.advance text.toList

theorem lineBreakAt_placeAfter (text : String) : lineBreakAt (placeAfter text) =
    ⟨.newline, "\n", text.length, lineAfter text.toList, colAfter text.toList⟩ := by
  have h := isAfter_placeAfter text
  rw [lineBreakAt, h.pos, h.line, h.col, String.length_toList]

/-- The start of a line after some lines and the start of a text differ in what is before them. -/
theorem movesTo_placeAfter (text : String) :
    Cursor.MovesTo {} ((placeAfter text).step '\n') (text.length + 1)
      (1 + text.toList.count '\n') := by
  have h := isAfter_placeAfter text
  refine ⟨?_, ?_, rfl, .inr ⟨rfl, rfl⟩⟩
  · simp only [Cursor.step, h.pos, String.length_toList]
    omega
  · simp only [Cursor.step, h.line, lineAfter, beq_self_eq_true, if_true]
    omega

theorem ofText_lineBreak (a b : String) : ofText (a ++ "\n" ++ b) = ofTextThen a (ofText b) := by
  obtain ⟨front, alone, followed⟩ := lexFrom_lineBreak {} a.toList b.toList
  have joined : (a ++ "\n" ++ b).toList = a.toList ++ '\n' :: b.toList := by simp
  rw [ofTextThen, ofText, ofText, ofText, joined, followed, alone, List.dropLast_concat,
    ← lexFrom_moved (movesTo_placeAfter a)]
  rfl

theorem piecesFrom_ne_nil (sep : Char) (piece cs : List Char) : piecesFrom sep piece cs ≠ [] := by
  fun_induction piecesFrom sep piece cs <;> simp_all

theorem ofLines_cons (line : String) {rest : List String} (h : rest ≠ []) :
    ofLines (line :: rest) = ofTextThen line (ofLines rest) := by
  cases rest with
  | nil => exact absurd rfl h
  | cons next rest => rfl

/-- The lines that begin with an open piece give the tokens of that piece with what follows it. -/
theorem ofLines_piecesFrom (piece cs : List Char) :
    ofLines ((piecesFrom '\n' piece cs).map String.ofList) =
      ofText (String.ofList (piece.reverse ++ cs)) := by
  induction cs generalizing piece with
  | nil => simp [piecesFrom, ofLines]
  | cons c cs ih =>
    rw [piecesFrom]
    split
    · next lineBreak =>
      have more : (piecesFrom '\n' [] cs).map String.ofList ≠ [] := by
        simpa using piecesFrom_ne_nil '\n' [] cs
      have joined : String.ofList (piece.reverse ++ c :: cs) =
          String.ofList piece.reverse ++ "\n" ++ String.ofList cs := by
        rw [← String.toList_inj]
        simp [beq_iff_eq.mp lineBreak]
      rw [List.map_cons, ofLines_cons _ more, ih, joined, ofText_lineBreak, List.reverse_nil,
        List.nil_append]
    · rw [ih, List.reverse_cons, List.append_assoc, List.singleton_append]

/-- The tokens of two texts with a line break between them: those of the first without the mark of
its end, the line break, and those of the second, as many characters and lines further on as come
before it and in the columns they have by themselves. So the tokens of a text are those of its lines
scanned one by one. -/
theorem tokens_of_lines :
    (∀ a b : String, ∃ front,
      ofText a = front ++ [⟨.finish, "", a.length, lineAfter a.toList, colAfter a.toList⟩] ∧
      (∀ t ∈ front, t.kind ≠ .finish) ∧
      ofText (a ++ "\n" ++ b) =
        front ++ ⟨.newline, "\n", a.length, lineAfter a.toList, colAfter a.toList⟩ ::
          (ofText b).map fun t =>
            { t with
              pos := t.pos + (a.length + 1)
              line := t.line + (1 + a.toList.count '\n') }) ∧
    ∀ text : String, ofText text = ofLines (lines text) := by
  refine ⟨fun a b => ?_, fun text => ?_⟩
  · obtain ⟨front, alone, others⟩ := (covers_ofText a).finish_last
    rw [placed, List.nil_append, String.length_toList] at alone
    refine ⟨front, alone, fun t mem => (others t mem).1, ?_⟩
    rw [ofText_lineBreak, ofTextThen, alone, List.dropLast_concat, lineBreakAt_placeAfter]
    rfl
  · have whole := ofLines_piecesFrom [] text.toList
    rw [List.reverse_nil, List.nil_append, String.ofList_toList] at whole
    exact whole.symm

end LineCalc.Token
