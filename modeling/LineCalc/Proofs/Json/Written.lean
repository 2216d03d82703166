import LineCalc.Proofs.Entries
import LineCalc.Proofs.Json.Numbers
import LineCalc.Proofs.Json.Strings

/-!
# Values written and read

The indented text of a value is read as that value.

Results:
1. `Json.Storable.reads`: a value written at any depth, before a line break or a comma.
2. `Json.read_indented`: a whole text.
-/

namespace LineCalc.Json

open LineCalc.Decimal

variable {rest cs : List Char} {depth : Nat}

/-! ## Lines -/

/-- The blanks before a line, after its line break. -/
def lineStart (depth : Nat) : List Char := '\n' :: List.replicate (2 * depth) ' '

theorem skipSpace_lineStart (depth : Nat) {c : Char} (visible : isSpace c = false)
    (cs : List Char) : skipSpace (lineStart depth ++ c :: cs) = c :: cs := by
  have blanks : ∀ c ∈ lineStart depth, isSpace c = true := by
    refine List.forall_mem_cons.mpr ⟨rfl, fun c mem => ?_⟩
    rw [List.eq_of_mem_replicate mem]
    rfl
  rw [skipSpace, List.dropWhile_append_of_pos blanks, List.dropWhile_cons_of_neg (by simp [visible])]

theorem delimited_lineStart (depth : Nat) (cs : List Char) : Delimited (lineStart depth ++ cs) := by
  rintro _ _ ⟨rfl, rfl⟩
  exact .inr rfl

/-- What comes before a part that is not the first. -/
def separator (depth : Nat) : List Char := ',' :: lineStart depth

theorem delimited_separator (depth : Nat) (cs : List Char) : Delimited (separator depth ++ cs) := by
  rintro _ _ ⟨rfl, rfl⟩
  exact .inl rfl

theorem intercalate_cons (sep part : List Char) (parts : List (List Char)) :
    sep.intercalate (part :: parts) = part ++ parts.flatMap (sep ++ ·) := by
  induction parts generalizing part with
  | nil => rw [List.intercalate_singleton, List.flatMap_nil, List.append_nil]
  | cons next parts ih =>
    rw [List.intercalate_cons_cons, ih, List.flatMap_cons, List.append_assoc, List.append_assoc]

/-- The lines of a block that is not empty. -/
theorem toList_block (opening closing : String) (depth : Nat) (part : String)
    (parts : List String) : (block opening closing depth (part :: parts)).toList =
      opening.toList ++ (lineStart (depth + 1) ++ (part.toList ++
        ((parts.flatMap fun p => separator (depth + 1) ++ p.toList) ++
          (lineStart depth ++ closing.toList)))) := by
  have between : (",\n" ++ indentation (depth + 1)).toList = separator (depth + 1) := by
    simp [indentation, separator, lineStart]
  rw [block, if_neg (by simp)]
  simp only [String.toList_append, String.toList_intercalate, between, List.map_cons,
    intercalate_cons]
  simp [indentation, lineStart, List.flatMap_map]

/-- Where a value can be read, it begins neither with a blank nor with a closing bracket. -/
theorem head_of_reads {j : Json} (reads : (readValue cs).found = .ok (j, rest)) :
    ∃ c cs', cs = c :: cs' ∧ isSpace c = false ∧ c ≠ ']' := by
  have malformed {c : Char} (mark : c ∈ [' ', '\t', '\n', '\r', ']']) (cs' : List Char) :
      (readValue (c :: cs')).found = .error .malformed := by
    simp only [List.mem_cons, List.not_mem_nil, or_false] at mark
    rcases mark with rfl | rfl | rfl | rfl | rfl
    all_goals
      rw [readValue_scalar (by simp) (by simp) (by simp),
        readScalar_number (wordAt?_eq_none (by decide) cs') (by decide), readNumber_found]
      rfl
  cases cs with
  | nil =>
    rw [readValue_scalar (by simp) (by simp) (by simp)] at reads
    cases reads
  | cons c cs' =>
    have other : c ∉ [' ', '\t', '\n', '\r', ']'] := by
      intro mark
      cases (malformed mark cs').symm.trans reads
    simp only [List.mem_cons, List.not_mem_nil, or_false, not_or] at other
    obtain ⟨blank, tab, newline, return', bracket⟩ := other
    exact ⟨c, cs', rfl, by simp [isSpace, blank, tab, newline, return'], bracket⟩

/-! ## Trees -/

/-- A value that can be read from its text: integers are not too long and no key of an object stands
twice. -/
inductive Storable : Json → Prop
  | null : Storable .null
  | bool (b : Bool) : Storable (.bool b)
  | integer {n : Int} : (Nat.toDigits 10 n.natAbs).length ≤ longestInteger → Storable (.integer n)
  | decimal (x : Float) : Storable (.decimal x)
  | string (s : String) : Storable (.string s)
  | array {items : List Json} : (∀ j ∈ items, Storable j) → Storable (.array items)
  | object {ms : List (String × Json)} :
    Entries.Distinct ms → (∀ m ∈ ms, Storable m.2) → Storable (.object ms)

/-- A value is read from its text at any depth. -/
def Reads (j : Json) : Prop :=
  ∀ depth rest, Delimited rest →
    (readValue ((j.indentedAt depth).toList ++ rest)).found = .ok (j, rest)

variable {j : Json} {items : List Json} {m : String × Json} {ms : List (String × Json)}

theorem indentedItems_eq (depth : Nat) (items : List Json) :
    indentedItems depth items = items.map (·.indentedAt depth) := by
  induction items with
  | nil => rfl
  | cons j items ih => rw [indentedItems, ih, List.map_cons]

theorem indentedMembers_eq (depth : Nat) (ms : List (String × Json)) :
    indentedMembers depth ms =
      ms.map fun m => stringText m.1 ++ ": " ++ m.2.indentedAt depth := by
  induction ms with
  | nil => rfl
  | cons m ms ih => rw [indentedMembers, ih, List.map_cons]

/-- The text of a value is its head and a tail, and the head is not a blank. -/
theorem Reads.head (reads : j.Reads) (depth : Nat) :
    ∃ c cs, (j.indentedAt depth).toList = c :: cs ∧ isSpace c = false ∧ c ≠ ']' := by
  have read := reads depth [] delimited_nil
  rw [List.append_nil] at read
  exact head_of_reads read

theorem Reads.skipSpace_lineStart (reads : j.Reads) (depth line : Nat) (rest : List Char) :
    skipSpace (lineStart line ++ ((j.indentedAt depth).toList ++ rest)) =
      (j.indentedAt depth).toList ++ rest := by
  obtain ⟨c, cs, eq, visible, -⟩ := reads.head depth
  rw [eq, List.cons_append, Json.skipSpace_lineStart line visible]

theorem skipSpace_separator (depth : Nat) (cs : List Char) :
    skipSpace (separator depth ++ cs) = ',' :: (lineStart depth ++ cs) := rfl

/-- The items of an array, on lines of their own. -/
theorem readItems_lines (reads : ∀ i ∈ j :: items, i.Reads) (depth closing : Nat)
    (rest : List Char) :
    (readItems ((j.indentedAt depth).toList ++
      ((items.flatMap fun i => separator depth ++ (i.indentedAt depth).toList) ++
        (lineStart closing ++ ']' :: rest)))).found = .ok (j :: items, rest) := by
  induction items generalizing j with
  | nil =>
    have first := reads j List.mem_cons_self
    have closed := Json.skipSpace_lineStart closing (rfl : isSpace ']' = false) rest
    rw [List.flatMap_nil, List.nil_append, readItems_found,
      first depth _ (delimited_lineStart _ _)]
    simp only [bind, Except.bind, closed]
  | cons i items ih =>
    obtain ⟨first, others⟩ := List.forall_mem_cons.mp reads
    have second := others i List.mem_cons_self
    rw [List.flatMap_cons, List.append_assoc, List.append_assoc, readItems_found,
      first depth _ (delimited_separator _ _)]
    simp only [bind, Except.bind, skipSpace_separator]
    rw [second.skipSpace_lineStart, ih others]
    rfl

/-- The text of a member on a line of its own. -/
def memberChars (depth : Nat) (m : String × Json) : List Char :=
  '"' :: (m.1.toList.flatMap escapeChar ++ '"' :: ':' :: ' ' :: (m.2.indentedAt depth).toList)

/-- A member is read up to the end of its value. -/
theorem readMember (reads : m.2.Reads) (depth : Nat) (tail : List Char) (ends : Delimited tail) :
    ∃ cs afterColon, memberChars depth m ++ tail = '"' :: cs ∧
      (readString cs).found = .ok (m.1, ':' :: afterColon) ∧
      (readValue (skipSpace afterColon)).found = .ok (m.2, tail) := by
  refine ⟨m.1.toList.flatMap escapeChar ++
      '"' :: ':' :: ' ' :: ((m.2.indentedAt depth).toList ++ tail),
    ' ' :: ((m.2.indentedAt depth).toList ++ tail), ?_, ?_, ?_⟩
  · simp [memberChars]
  · rw [readString_written, String.ofList_toList]
  · obtain ⟨c, cs, eq, visible, -⟩ := reads.head depth
    have text : skipSpace ((m.2.indentedAt depth).toList ++ tail) =
        (m.2.indentedAt depth).toList ++ tail := by
      rw [eq, List.cons_append, skipSpace, List.dropWhile_cons_of_neg (by simp [visible])]
    have blank : skipSpace (' ' :: ((m.2.indentedAt depth).toList ++ tail)) =
        (m.2.indentedAt depth).toList ++ tail := text
    rw [blank, reads depth tail ends]

/-- The members of an object, on lines of their own. -/
theorem readMembers_lines (reads : ∀ n ∈ m :: ms, n.2.Reads) (depth closing : Nat)
    (rest : List Char) :
    (readMembers (memberChars depth m ++
      ((ms.flatMap fun n => separator depth ++ memberChars depth n) ++
        (lineStart closing ++ '\x7d' :: rest)))).found = .ok (m :: ms, rest) := by
  induction ms generalizing m with
  | nil =>
    have closed := Json.skipSpace_lineStart closing (rfl : isSpace '\x7d' = false) rest
    obtain ⟨cs, afterColon, eq, key, value⟩ := readMember (reads m List.mem_cons_self) depth
      (lineStart closing ++ '\x7d' :: rest) (delimited_lineStart _ _)
    rw [List.flatMap_nil, List.nil_append, eq, readMembers_last key rfl value closed]
  | cons n ms ih =>
    obtain ⟨first, others⟩ := List.forall_mem_cons.mp reads
    obtain ⟨cs, afterColon, eq, key, value⟩ := readMember first depth _
      (delimited_separator depth (memberChars depth n ++
        ((ms.flatMap fun n => separator depth ++ memberChars depth n) ++
          (lineStart closing ++ '\x7d' :: rest))))
    have next : ∀ cs, skipSpace (lineStart depth ++ (memberChars depth n ++ cs)) =
        memberChars depth n ++ cs := fun cs => Json.skipSpace_lineStart depth rfl _
    rw [List.flatMap_cons, List.append_assoc, List.append_assoc, eq,
      readMembers_more key rfl value (skipSpace_separator _ _), next, ih others]
    rfl

theorem reads_word (c : Char) (cs : List Char)
    (written : ∀ depth, (j.indentedAt depth).toList = c :: cs)
    (found : ∀ rest, wordAt? (c :: cs ++ rest) = some (j, (c :: cs).length))
    (letter : c ≠ '"' ∧ c ≠ '[' ∧ c ≠ '\x7b') : j.Reads := by
  intro depth rest _
  rw [written]
  exact readValue_word (found rest) letter

theorem reads_string (s : String) : Reads (.string s) := by
  intro depth rest _
  have written : ((Json.string s).indentedAt depth).toList ++ rest =
      '"' :: (s.toList.flatMap escapeChar ++ '"' :: rest) := by
    simp [indentedAt, compact, stringText]
  rw [written, readValue_string, readString_written, String.ofList_toList]
  rfl

theorem reads_array (reads : ∀ i ∈ items, i.Reads) : Reads (.array items) := by
  intro depth rest _
  cases items with
  | nil =>
    have written : ((Json.array []).indentedAt depth).toList ++ rest = '[' :: ']' :: rest := by
      simp [indentedAt, indentedItems, block]
    rw [written, readValue_array]
    rfl
  | cons j items =>
    have first := reads j List.mem_cons_self
    have written : ((Json.array (j :: items)).indentedAt depth).toList ++ rest =
        '[' :: (lineStart (depth + 1) ++ ((j.indentedAt (depth + 1)).toList ++
          ((items.flatMap fun i => separator (depth + 1) ++ (i.indentedAt (depth + 1)).toList) ++
            (lineStart depth ++ ']' :: rest)))) := by
      rw [indentedAt, indentedItems_eq, List.map_cons, toList_block]
      simp [List.flatMap_map]
    obtain ⟨c, cs, eq, -, notClosed⟩ := first.head (depth + 1)
    have inner := readItems_lines reads (depth + 1) depth rest
    rw [written, readValue_array, first.skipSpace_lineStart]
    rw [eq, List.cons_append] at inner ⊢
    split
    · next eq => exact absurd (List.cons.inj eq).1 notClosed
    · rw [inner]
      rfl

theorem reads_object (distinct : Entries.Distinct ms) (reads : ∀ n ∈ ms, n.2.Reads) :
    Reads (.object ms) := by
  intro depth rest _
  cases ms with
  | nil =>
    have written : ((Json.object []).indentedAt depth).toList ++ rest =
        '\x7b' :: '\x7d' :: rest := by
      simp [indentedAt, indentedMembers, block]
    rw [written, readValue_object]
    rfl
  | cons m ms =>
    have written : ((Json.object (m :: ms)).indentedAt depth).toList ++ rest =
        '\x7b' :: (lineStart (depth + 1) ++ (memberChars (depth + 1) m ++
          ((ms.flatMap fun n => separator (depth + 1) ++ memberChars (depth + 1) n) ++
            (lineStart depth ++ '\x7d' :: rest)))) := by
      rw [indentedAt, indentedMembers_eq, List.map_cons, toList_block]
      simp [List.flatMap_map, memberChars, stringText]
    have inner := readMembers_lines reads (depth + 1) depth rest
    have next (cs : List Char) : skipSpace (lineStart (depth + 1) ++
        (memberChars (depth + 1) m ++ cs)) = memberChars (depth + 1) m ++ cs :=
      Json.skipSpace_lineStart (depth + 1) rfl _
    rw [written, readValue_object, next]
    rw [memberChars, List.cons_append] at inner ⊢
    show onValue (Json.object ∘ Entries.ofPairs) (readMembers _).found = _
    rw [inner]
    show Except.ok (Json.object (Entries.ofPairs (m :: ms)), rest) = _
    rw [Entries.ofPairs_of_distinct distinct]

/-- A value is read from its text at any depth. -/
theorem Storable.reads (storable : j.Storable) : j.Reads := by
  induction storable with
  | null =>
    have written (depth : Nat) : (Json.null.indentedAt depth).toList = ['n', 'u', 'l', 'l'] := by
      simp [indentedAt, compact]
    exact reads_word 'n' ['u', 'l', 'l'] written (fun _ => rfl) (by decide)
  | bool b =>
    cases b with
    | false =>
      have written (depth : Nat) :
          ((Json.bool false).indentedAt depth).toList = ['f', 'a', 'l', 's', 'e'] := by
        simp [indentedAt, compact]
      exact reads_word 'f' ['a', 'l', 's', 'e'] written (fun _ => rfl) (by decide)
    | true =>
      have written (depth : Nat) :
          ((Json.bool true).indentedAt depth).toList = ['t', 'r', 'u', 'e'] := by
        simp [indentedAt, compact]
      exact reads_word 't' ['r', 'u', 'e'] written (fun _ => rfl) (by decide)
  | integer short => exact fun _ _ => readValue_integer short
  | decimal x => exact fun _ _ => readValue_decimal x
  | string s => exact reads_string s
  | array _ reads => exact reads_array reads
  | object distinct _ reads => exact reads_object distinct reads

/-- A value is read from its indented text. -/
theorem read_indented (storable : j.Storable) : read j.indented = .ok j := by
  have reads := storable.reads
  obtain ⟨c, cs, eq, visible, -⟩ := reads.head 0
  have found := reads 0 [] delimited_nil
  rw [List.append_nil] at found
  have text : skipSpace j.indented.toList = j.indented.toList := by
    show skipSpace (j.indentedAt 0).toList = (j.indentedAt 0).toList
    rw [eq, skipSpace, List.dropWhile_cons_of_neg (by simp [visible])]
  refine read_of_found ?_ (rfl : skipSpace [] = [])
  rw [text]
  exact found

end LineCalc.Json
