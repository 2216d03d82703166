import LineCalc.Proofs.Token.Lexer

/-!
# Tokens cover a text

Between the tokens of a text there are blanks only, and nothing of the text stands in two tokens.
So the tokens, put back with the blanks between them, are the text. The place of a token is told by
the characters before it: their number, the line breaks among them, and how many come after the last
line break.

Results:
1. `covers_lexFrom`: the tokens of what is left of a text cover it.
2. `ofText_split`: the tokens from one of them on are scanned from its place.
3. `tokens_cover_text`: what covering says of the tokens of a whole text, place by place.
-/

namespace LineCalc.Token

/-! ## Places -/

/-- The line of what comes after some characters. -/
def lineAfter (before : List Char) : Nat := 1 + before.count '\n'

/-- The column of what comes after some characters. -/
def colAfter (before : List Char) : Nat := 1 + (before.reverse.takeWhile (· != '\n')).length

/-- The place where a token ends. -/
def stop (t : Token) : Nat := t.pos + t.text.length

/-- A token that holds `piece` and stands after `before`. -/
def placed (kind : TokenKind) (before piece : List Char) : Token :=
  ⟨kind, String.ofList piece, before.length, lineAfter before, colAfter before⟩

theorem stop_placed (kind : TokenKind) (before piece : List Char) :
    (placed kind before piece).stop = (before ++ piece).length := by
  simp [placed, stop]

/-- The cursor is at the place after some characters. -/
structure Cursor.IsAfter (cur : Cursor) (before : List Char) : Prop where
  pos : cur.pos = before.length
  line : cur.line = lineAfter before
  col : cur.col = colAfter before

variable {cur : Cursor} {c : Char} {before cs gap piece rest : List Char} {t : Token}
  {ts : List Token}

theorem lineAfter_concat (before : List Char) (c : Char) :
    lineAfter (before ++ [c]) = if c == '\n' then lineAfter before + 1 else lineAfter before := by
  rw [lineAfter, lineAfter, List.count_append, List.count_singleton]
  split <;> omega

theorem colAfter_concat (before : List Char) (c : Char) :
    colAfter (before ++ [c]) = if c == '\n' then 1 else colAfter before + 1 := by
  rw [colAfter, colAfter, List.reverse_concat, List.takeWhile_cons]
  cases lineBreak : c == '\n' with
  | true => simp [bne, lineBreak]
  | false => simp [bne, lineBreak, Nat.add_assoc]

theorem Cursor.isAfter_start : Cursor.IsAfter {} [] := ⟨rfl, rfl, rfl⟩

theorem Cursor.IsAfter.step (h : cur.IsAfter before) (c : Char) :
    (cur.step c).IsAfter (before ++ [c]) := by
  refine ⟨?_, ?_, ?_⟩
  · simp [Cursor.step, h.pos]
  · rw [lineAfter_concat, ← h.line]
    rfl
  · rw [colAfter_concat, ← h.col]
    rfl

theorem Cursor.IsAfter.advance (h : cur.IsAfter before) (piece : List Char) :
    (cur.advance piece).IsAfter (before ++ piece) := by
  induction piece generalizing cur before with
  | nil => simpa [Cursor.advance] using h
  | cons c piece ih =>
    rw [List.append_cons]
    exact ih (h.step c)

theorem Cursor.advance_append (cur : Cursor) (cs ds : List Char) :
    cur.advance (cs ++ ds) = (cur.advance cs).advance ds := List.foldl_append

/-! ## Kinds -/

theorem punctuation_ne_finish : punctuation c ≠ .finish := by
  unfold punctuation
  split <;> decide

theorem glyphKind_ne_finish : glyphKind c ≠ .finish := by
  unfold glyphKind
  split <;> decide

theorem keyword?_ne_finish {word : String} : keyword? word ≠ some .finish := by
  unfold keyword?
  split <;> decide

theorem numeral_ne_finish : (numeral cs).1 ≠ .finish := by
  unfold numeral
  simp only
  split <;> nofun

/-- Only the end of a text is marked as such. -/
theorem lexeme_ne_finish (cur : Cursor) (c : Char) (cs : List Char) :
    (lexeme cur c cs).1 ≠ .finish := by
  unfold lexeme
  split
  · nofun
  split
  · nofun
  split
  · exact glyphKind_ne_finish
  split
  · exact numeral_ne_finish
  split
  · exact numeral_ne_finish
  split
  · simp only
    split
    · next found =>
      rintro rfl
      exact keyword?_ne_finish found
    · nofun
  split
  · nofun
  · exact punctuation_ne_finish

/-! ## Covered texts -/

/-- After `before`, the text `rest` is made of the tokens with blanks before each of them, and the
last token marks the end. -/
inductive Covers : List Char → List Char → List Token → Prop
  | finish {before gap : List Char} :
      (∀ c ∈ gap, isGap c = true) → Covers before gap [placed .finish (before ++ gap) []]
  | token {before gap piece rest : List Char} {kind : TokenKind} {ts : List Token} :
      (∀ c ∈ gap, isGap c = true) → kind ≠ .finish → piece ≠ [] →
      Covers (before ++ gap ++ piece) rest ts →
      Covers before (gap ++ (piece ++ rest)) (placed kind (before ++ gap) piece :: ts)

theorem Covers.blank (gap : isGap c = true) (h : Covers (before ++ [c]) rest ts) :
    Covers before (c :: rest) ts := by
  have blanks {gap' : List Char} (h : ∀ c ∈ gap', isGap c = true) :
      ∀ d ∈ c :: gap', isGap d = true := List.forall_mem_cons.mpr ⟨gap, h⟩
  cases h with
  | finish h =>
    rw [← List.append_cons]
    exact .finish (blanks h)
  | token h kind piece rest =>
    rw [← List.append_cons] at rest ⊢
    exact .token (blanks h) kind piece rest

/-- The tokens of what is left of a text cover it. -/
theorem covers_lexFrom (h : cur.IsAfter before) : Covers before cs (lexFrom cur cs) := by
  fun_induction lexFrom cur cs generalizing before with
  | case1 cur =>
    have last : placed .finish before [] = ⟨.finish, "", cur.pos, cur.line, cur.col⟩ := by
      rw [h.pos, h.line, h.col]
      rfl
    have covered : Covers before [] [placed .finish (before ++ []) []] :=
      .finish (List.forall_mem_nil _)
    rwa [List.append_nil, last] at covered
  | case2 cur c cs gap ih => exact .blank gap (ih (h.step c))
  | case3 cur c cs _ kind more eq text =>
    rename_i ih
    have first : placed kind before text =
        ⟨kind, String.ofList text, cur.pos, cur.line, cur.col⟩ := by
      rw [h.pos, h.line, h.col]
      rfl
    have named : kind ≠ .finish := by simpa [eq] using lexeme_ne_finish cur c cs
    have rest := ih (h.advance text)
    rw [← List.append_nil before] at rest
    have covered := Covers.token (List.forall_mem_nil _) named (List.cons_ne_nil c _) rest
    rw [List.append_nil, first] at covered
    simpa [text] using covered

theorem covers_ofText (text : String) : Covers [] text.toList (ofText text) :=
  covers_lexFrom Cursor.isAfter_start

/-! ## Places in a covered text -/

/-- The pieces of a text that tokens leave out from a place on: that before each token and that
after the last one. -/
def gaps (cs : List Char) (pos : Nat) : List Token → List (List Char)
  | [] => [cs.drop pos]
  | t :: ts => cs.extract pos t.pos :: gaps cs t.stop ts

/-- Tokens put between pieces of text. -/
def weave : List (List Char) → List Token → List Char
  | gap :: gaps, t :: ts => gap ++ t.text.toList ++ weave gaps ts
  | gaps, _ => gaps.flatten

theorem extract_of_append (before gap rest : List Char) :
    (before ++ (gap ++ rest)).extract before.length (before ++ gap).length = gap := by
  simp [List.extract]

/-- A token holds the piece of the text that stands at its place. -/
structure StandsIn (t : Token) (cs : List Char) : Prop where
  text : t.text.toList = cs.extract t.pos t.stop
  line : t.line = lineAfter (cs.take t.pos)
  col : t.col = colAfter (cs.take t.pos)

theorem standsIn_placed (kind : TokenKind) (before piece rest : List Char) :
    (placed kind before piece).StandsIn (before ++ (piece ++ rest)) := by
  refine ⟨?_, by simp [placed], by simp [placed]⟩
  rw [stop_placed]
  exact String.toList_ofList.trans (extract_of_append before piece rest).symm

namespace Covers

theorem standsIn (h : Covers before rest ts) : ∀ t ∈ ts, t.StandsIn (before ++ rest) := by
  induction h with
  | @finish before gap =>
    have last := standsIn_placed .finish (before ++ gap) [] []
    rw [List.append_nil, List.append_nil] at last
    exact List.forall_mem_singleton.mpr last
  | @token before gap piece rest kind ts _ _ _ _ ih =>
    have first := standsIn_placed kind (before ++ gap) piece rest
    simp only [List.append_assoc] at first ih ⊢
    exact List.forall_mem_cons.mpr ⟨first, ih⟩

theorem le_pos (h : Covers before rest ts) : ∀ t ∈ ts, before.length ≤ t.pos := by
  induction h with
  | finish => simp [placed]
  | token _ _ _ _ ih =>
    refine List.forall_mem_cons.mpr ⟨by simp [placed], fun t mem => ?_⟩
    have later := ih t mem
    simp only [List.length_append] at later
    omega

/-- A token ends before the next one begins. -/
theorem pairwise (h : Covers before rest ts) : ts.Pairwise fun a b => a.stop ≤ b.pos := by
  induction h with
  | finish => exact List.pairwise_singleton _ _
  | token _ _ _ covered ih =>
    refine List.pairwise_cons.mpr ⟨fun t mem => ?_, ih⟩
    rw [stop_placed]
    exact covered.le_pos t mem

theorem finish_last (h : Covers before rest ts) :
    ∃ front, ts = front ++ [placed .finish (before ++ rest) []] ∧
      ∀ t ∈ front, t.kind ≠ .finish ∧ t.text ≠ "" := by
  induction h with
  | finish => exact ⟨[], rfl, List.forall_mem_nil _⟩
  | @token before gap piece rest kind ts _ named nonempty _ ih =>
    obtain ⟨front, eq, others⟩ := ih
    refine ⟨placed kind (before ++ gap) piece :: front, ?_, ?_⟩
    · rw [eq, List.cons_append]
      simp only [List.append_assoc]
    · have filled : String.ofList piece ≠ "" := by simpa [← String.toList_inj] using nonempty
      exact List.forall_mem_cons.mpr ⟨⟨named, filled⟩, others⟩

theorem gaps_blank (h : Covers before rest ts) :
    ∀ gap ∈ gaps (before ++ rest) before.length ts, ∀ c ∈ gap, isGap c = true := by
  induction h with
  | @finish before gap blank =>
    have all : (before ++ gap).extract before.length (placed .finish (before ++ gap) []).pos =
        gap := by simp [placed]
    rw [gaps, gaps, all, stop_placed, List.append_nil, List.drop_length]
    exact List.forall_mem_cons.mpr ⟨blank, by simp⟩
  | @token before gap piece rest kind ts blank _ _ _ ih =>
    have first : (before ++ (gap ++ (piece ++ rest))).extract before.length
        (placed kind (before ++ gap) piece).pos = gap := extract_of_append before gap _
    rw [gaps, first, stop_placed]
    simp only [List.append_assoc] at ih ⊢
    exact List.forall_mem_cons.mpr ⟨blank, ih⟩

theorem weave_gaps (h : Covers before rest ts) :
    weave (gaps (before ++ rest) before.length ts) ts = rest := by
  induction h with
  | @finish before gap =>
    simp [gaps, weave, placed, stop]
  | @token before gap piece rest kind ts _ _ _ _ ih =>
    have first : (before ++ (gap ++ (piece ++ rest))).extract before.length
        (placed kind (before ++ gap) piece).pos = gap := extract_of_append before gap _
    have literal : (placed kind (before ++ gap) piece).text.toList = piece := String.toList_ofList
    rw [gaps, first, stop_placed, weave, literal]
    simp only [List.append_assoc] at ih ⊢
    rw [ih]

end Covers

/-! ## Tokens from a place on -/

/-- The tokens from one of them on are scanned from its place. If it is the first one then there are
blanks before it only. -/
theorem lexFrom_split {front back : List Token} (h : lexFrom cur cs = front ++ t :: back) :
    ∃ done rest, cs = done ++ rest ∧ lexFrom (cur.advance done) rest = t :: back ∧
      t.pos = (cur.advance done).pos ∧ (∀ c ∈ rest.head?, isGap c = false) ∧
      (front = [] → ∀ c ∈ done, isGap c = true) := by
  fun_induction lexFrom cur cs generalizing front with
  | case1 cur =>
    obtain ⟨rfl, last⟩ := List.append_eq_singleton_iff.mp h.symm |>.resolve_right (by simp)
    cases last
    refine ⟨[], [], rfl, ?_, rfl, by simp, fun _ => List.forall_mem_nil _⟩
    rw [Cursor.advance, List.foldl_nil, lexFrom]
  | case2 cur c cs gap ih =>
    obtain ⟨done, rest, rfl, tokens, place, visible, first⟩ := ih h
    exact ⟨c :: done, rest, rfl, tokens, place, visible,
      fun none => List.forall_mem_cons.mpr ⟨gap, first none⟩⟩
  | case3 cur c cs visible kind more eq text =>
    rename_i ih
    have visible : isGap c = false := by simpa using visible
    cases front with
    | nil =>
      obtain ⟨rfl, rfl⟩ := List.cons.inj h
      refine ⟨[], c :: cs, rfl, lexFrom_of_lexeme visible eq, rfl, ?_, ?_⟩
      · simpa using visible
      · exact fun _ => List.forall_mem_nil _
    | cons first front =>
      obtain ⟨-, h⟩ := List.cons.inj h
      obtain ⟨done, rest, split, tokens, place, visible, -⟩ := ih h
      refine ⟨text ++ done, rest, ?_, ?_, ?_, visible, fun none => absurd none (by simp)⟩
      · rw [List.append_assoc, ← split, List.cons_append, List.take_append_drop]
      · rwa [Cursor.advance_append]
      · rwa [Cursor.advance_append]

/-- The place of a token of a text. -/
def placeOf (text : String) (t : Token) : Cursor := Cursor.advance {} (text.toList.take t.pos)

/-- The tokens of a text from one of them on are scanned from its place. -/
theorem ofText_split {text : String} {front back : List Token}
    (h : ofText text = front ++ t :: back) :
    lexFrom (placeOf text t) (text.toList.drop t.pos) = t :: back ∧
      (∀ c ∈ (text.toList.drop t.pos).head?, isGap c = false) ∧
      (front = [] → ∀ c ∈ text.toList.take t.pos, isGap c = true) := by
  obtain ⟨done, rest, all, tokens, place, visible, first⟩ := lexFrom_split h
  have after := Cursor.isAfter_start.advance done
  have count : t.pos = done.length := place.trans after.pos
  rw [placeOf, all, count, List.take_left, List.drop_left]
  exact ⟨tokens, visible, first⟩

/-! ## The tokens of a text -/

/-- The tokens of a text, in order, are pieces of it that do not overlap; the last one, and only
that, marks the end, and no other is empty. What is left between them are spaces, tabs and carriage
returns, and put back between the tokens these give the text. The line of a token is counted by the
line breaks before it, and its column from the last of these. -/
theorem tokens_cover_text (text : String) :
    (∃ front, ofText text = front ++ [⟨.finish, "", text.length, lineAfter text.toList,
        colAfter text.toList⟩] ∧ ∀ t ∈ front, t.kind ≠ .finish ∧ t.text ≠ "") ∧
    (∀ t ∈ ofText text, t.text.toList = text.toList.extract t.pos (t.pos + t.text.length) ∧
      t.line = 1 + (text.toList.take t.pos).count '\n' ∧
      t.col = 1 + ((text.toList.take t.pos).reverse.takeWhile (· != '\n')).length) ∧
    (ofText text).Pairwise (fun a b => a.pos + a.text.length ≤ b.pos) ∧
    (∀ gap ∈ gaps text.toList 0 (ofText text), ∀ c ∈ gap, c = ' ' ∨ c = '\t' ∨ c = '\r') ∧
    String.ofList (weave (gaps text.toList 0 (ofText text)) (ofText text)) = text := by
  have covers := covers_ofText text
  refine ⟨?_, fun t mem => ?_, covers.pairwise, fun gap mem c hc => ?_, ?_⟩
  · obtain ⟨front, eq, others⟩ := covers.finish_last
    refine ⟨front, ?_, others⟩
    rw [eq, placed, List.nil_append, String.length_toList]
  · have stands := covers.standsIn t mem
    exact ⟨stands.text, stands.line, stands.col⟩
  · simpa [isGap, or_assoc] using covers.gaps_blank gap mem c hc
  · have woven := covers.weave_gaps
    rw [List.nil_append, List.length_nil] at woven
    rw [woven, String.ofList_toList]

end LineCalc.Token
