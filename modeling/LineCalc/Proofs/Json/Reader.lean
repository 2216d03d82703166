import LineCalc.Json.Reader

/-!
# What JSON texts are read as

The steps of the reader without the lengths that let it end. What a step leaves over is the end of
what it was given, and the one thing that stops the reader for good is an integer of too many
digits, which stands in the text.

Results:
1. `Json.readNumber_digits`: what a row of digits is read as.
2. `Json.hasLongRow_of_read`: an integer that is too long to be read stands in the text.
-/

namespace LineCalc.Json

open LineCalc.Decimal

variable {α β : Type} {cs rest : List Char} {f : α → β}

/-! ## Steps without lengths -/

/-- What a step has read and the rest. -/
def Outcome.found (o : Outcome α cs) : Except ReadProblem (α × List Char) :=
  o.map fun s => (s.value, s.rest)

@[simp] theorem found_ok (s : Step α cs) :
    Outcome.found (Except.ok s : Outcome α cs) = .ok (s.value, s.rest) := rfl

@[simp] theorem found_error (e : ReadProblem) :
    Outcome.found (Except.error e : Outcome α cs) = .error e := rfl

/-- What was read, changed. -/
def onValue (f : α → β) (r : Except ReadProblem (α × List Char)) :
    Except ReadProblem (β × List Char) :=
  r.map (Prod.map f id)

theorem readValue_string (rest : List Char) :
    (readValue ('"' :: rest)).found = onValue .string (readString rest).found := by
  rw [readValue]
  cases readString rest <;> rfl

theorem readValue_array (rest : List Char) :
    (readValue ('[' :: rest)).found = match skipSpace rest with
      | ']' :: after => .ok (.array [], after)
      | inner => onValue .array (readItems inner).found := by
  rw [readValue]
  split
  · next after eq => simp only [found_ok, eq]
  · next notClosed =>
    dsimp only
    split
    all_goals
      next eq =>
      split
      · next after closed => exact (notClosed after closed).elim
      · rw [eq]
        rfl

theorem readValue_object (rest : List Char) :
    (readValue ('\x7b' :: rest)).found = match skipSpace rest with
      | '\x7d' :: after => .ok (.object [], after)
      | inner => onValue (.object ∘ Entries.ofPairs) (readMembers inner).found := by
  rw [readValue]
  split
  · next after eq => simp only [found_ok, eq]
  · next notClosed =>
    dsimp only
    split
    all_goals
      next eq =>
      split
      · next after closed => exact (notClosed after closed).elim
      · rw [eq]
        rfl

theorem readValue_scalar (string : ∀ rest, cs ≠ '"' :: rest) (array : ∀ rest, cs ≠ '[' :: rest)
    (object : ∀ rest, cs ≠ '\x7b' :: rest) : readValue cs = readScalar cs := by
  rw [readValue]
  · exact string
  · exact array
  · exact object

theorem readItems_found (cs : List Char) :
    (readItems cs).found = (readValue cs).found >>= fun (first, rest) =>
      match skipSpace rest with
      | ']' :: after => .ok ([first], after)
      | ',' :: more => onValue (first :: ·) (readItems (skipSpace more)).found
      | _ => .error .malformed := by
  rw [readItems]
  cases readValue cs with
  | error e => rfl
  | ok first =>
    simp only [bind, Except.bind, found_ok]
    split
    · next after eq => simp only [found_ok, eq]
    · next more eq =>
      simp only [eq]
      cases readItems (skipSpace more) <;> rfl
    · next notClosed notMore =>
      split
      · next after eq => exact (notClosed after eq).elim
      · next more eq => exact (notMore more eq).elim
      · rfl

theorem readMembers_found (rest : List Char) :
    (readMembers ('"' :: rest)).found = (readString rest).found >>= fun (key, rest) =>
      match skipSpace rest with
      | ':' :: rest => (readValue (skipSpace rest)).found >>= fun (value, rest) =>
        match skipSpace rest with
        | '\x7d' :: after => .ok ([(key, value)], after)
        | ',' :: more => onValue ((key, value) :: ·) (readMembers (skipSpace more)).found
        | _ => .error .malformed
      | _ => .error .malformed := by
  rw [readMembers]
  cases readString rest with
  | error e => rfl
  | ok key =>
    simp only [bind, Except.bind, found_ok]
    split
    · next after eq =>
      simp only [eq]
      cases readValue (skipSpace after) with
      | error e => rfl
      | ok value =>
        simp only [found_ok]
        split
        · next after eq => simp only [found_ok, eq]
        · next more eq =>
          simp only [eq]
          cases readMembers (skipSpace more) <;> rfl
        · next notClosed notMore =>
          split
          · next after eq => exact (notClosed after eq).elim
          · next more eq => exact (notMore more eq).elim
          · rfl
    · next notColon =>
      split
      · next after eq => exact (notColon after eq).elim
      · rfl

theorem readMembers_malformed (noKey : ∀ rest, cs ≠ '"' :: rest) :
    readMembers cs = .error .malformed := by
  rw [readMembers]
  exact noKey

theorem read_of_found {text : String} {j : Json}
    (reads : (readValue (skipSpace text.toList)).found = .ok (j, rest))
    (ends : skipSpace rest = []) : read text = .ok j := by
  rw [read]
  split
  · next e eq =>
    rw [eq] at reads
    cases reads
  · next s eq =>
    rw [eq] at reads
    cases reads
    simp [ends]

section Members

variable {key : String} {value : Json} {afterKey afterColon afterValue after : List Char}
variable (readsKey : (readString cs).found = .ok (key, afterKey))
variable (colon : skipSpace afterKey = ':' :: afterColon)
variable (readsValue : (readValue (skipSpace afterColon)).found = .ok (value, afterValue))

include readsKey colon readsValue

/-- The last member of an object. -/
theorem readMembers_last (closed : skipSpace afterValue = '\x7d' :: after) :
    (readMembers ('"' :: cs)).found = .ok ([(key, value)], after) := by
  rw [readMembers_found, readsKey]
  simp only [bind, Except.bind, colon, readsValue, closed]

/-- A member of an object that others follow. -/
theorem readMembers_more (comma : skipSpace afterValue = ',' :: after) :
    (readMembers ('"' :: cs)).found =
      onValue ((key, value) :: ·) (readMembers (skipSpace after)).found := by
  rw [readMembers_found, readsKey]
  simp only [bind, Except.bind, colon, readsValue, comma]

end Members

/-! ## Numbers -/

/-- The digits before the point, of which a zero stands alone, and the rest. -/
def spanWhole (cs : List Char) : List Char × List Char :=
  match cs with
  | '0' :: rest => (['0'], rest)
  | _ => spanDigitChars cs

theorem spanWhole_append (cs : List Char) : (spanWhole cs).1 ++ (spanWhole cs).2 = cs := by
  unfold spanWhole
  split
  · rfl
  · exact List.takeWhile_append_dropWhile

theorem isDigit_of_mem_spanWhole (cs : List Char) : ∀ d ∈ (spanWhole cs).1, d.isDigit = true := by
  unfold spanWhole
  split
  · simp
  · exact fun d mem => List.all_eq_true.mp List.all_takeWhile d mem

theorem readNumber_found (negative : Bool) (cs : List Char) :
    (readNumber negative cs).found =
      let (whole, afterWhole) := spanWhole cs
      let (decimals, afterPoint) := readFraction afterWhole
      let (power, rest) := readPower afterPoint
      let digits := Text.ofDecimalDigits ((whole ++ decimals).map fun d => d.toNat - '0'.toNat)
      let x := nearestFloat digits (power.getD 0 - decimals.length)
      if whole.isEmpty then .error .malformed
      else if decimals.isEmpty && power.isNone then
        if whole.length > longestInteger then .error (.integerTooLong whole.length)
        else .ok (.integer (if negative then -(digits : Int) else digits), rest)
      else .ok (.decimal (if negative then -x else x), rest) := by
  unfold readNumber
  split
  next whole afterWhole eq =>
  have eq : spanWhole cs = (whole, afterWhole) := eq
  have parts : whole ++ afterWhole = cs := by simpa [eq] using spanWhole_append cs
  rw [eq]
  have empty : (whole.isEmpty = true ∨ ¬afterWhole.length < cs.length) ↔ whole.isEmpty = true := by
    rw [← parts, List.length_append, List.isEmpty_iff_length_eq_zero]
    omega
  dsimp only
  split
  · next none =>
    rw [if_pos (empty.mp none)]
    rfl
  · next some =>
    rw [if_neg (mt empty.mpr some)]
    split
    · split <;> rfl
    · rfl

/-- A row of digits ends where no digit follows. -/
theorem spanDigitChars_row {row : List Char} (digits : ∀ c ∈ row, c.isDigit = true)
    (ends : rest.takeWhile Char.isDigit = []) : spanDigitChars (row ++ rest) = (row, rest) := by
  have behind : rest.dropWhile Char.isDigit = rest := by
    have whole : rest.takeWhile Char.isDigit ++ rest.dropWhile Char.isDigit = rest :=
      List.takeWhile_append_dropWhile
    rwa [ends, List.nil_append] at whole
  refine Prod.ext ?_ ?_
  · show (row ++ rest).takeWhile Char.isDigit = row
    rw [List.takeWhile_append_of_pos digits, ends, List.append_nil]
  · show (row ++ rest).dropWhile Char.isDigit = rest
    rw [List.dropWhile_append_of_pos digits, behind]

/-- So does one before the point, unless it begins with zero. -/
theorem spanWhole_row {d : Char} {ds : List Char} (notZero : d ≠ '0')
    (digits : ∀ c ∈ d :: ds, c.isDigit = true) (ends : rest.takeWhile Char.isDigit = []) :
    spanWhole (d :: ds ++ rest) = (d :: ds, rest) := by
  rw [← spanDigitChars_row digits ends, List.cons_append, spanWhole]
  intro after eq
  exact notZero (List.cons.inj eq).1

/-- A row of digits that does not begin with zero is read as one integer, up to what follows it. -/
theorem readNumber_digits {d : Char} {ds : List Char} (negative : Bool) (notZero : d ≠ '0')
    (row : ∀ c ∈ d :: ds, c.isDigit = true) (ends : rest.takeWhile Char.isDigit = [])
    (noPoint : readFraction rest = ([], rest)) (noPower : readPower rest = (none, rest)) :
    (readNumber negative (d :: (ds ++ rest))).found =
      if longestInteger < (d :: ds).length then .error (.integerTooLong (d :: ds).length)
      else
        let n := Text.ofDecimalDigits ((d :: ds).map fun c => c.toNat - '0'.toNat)
        .ok (.integer (if negative then -(n : Int) else n), rest) := by
  rw [← List.cons_append, readNumber_found, spanWhole_row notZero row ends]
  dsimp only
  rw [noPoint]
  dsimp only
  rw [noPower]
  simp

/-! ## What is left over -/

/-- A row of `n` digits stands in a text, which are more than are read as an integer. -/
def HasLongRow (n : Nat) (cs : List Char) : Prop :=
  longestInteger < n ∧ ∃ ds, ds <:+: cs ∧ ds.length = n ∧ ∀ d ∈ ds, d.isDigit = true

/-- A step leaves over the end of its text, and is stopped by an integer that is too long only if
there is one. -/
def IsSound (cs : List Char) : Except ReadProblem (α × List Char) → Prop
  | .ok (_, rest) => rest <:+ cs
  | .error .malformed => True
  | .error (.integerTooLong n) => HasLongRow n cs

variable {ds : List Char} {r : Except ReadProblem (α × List Char)} {n : Nat}

theorem HasLongRow.within (row : HasLongRow n cs) (ends : cs <:+ ds) : HasLongRow n ds := by
  obtain ⟨long, digits, inside, row⟩ := row
  exact ⟨long, digits, inside.trans ends.isInfix, row⟩

theorem IsSound.within (sound : IsSound cs r) (ends : cs <:+ ds) : IsSound ds r := by
  match r, sound with
  | .ok _, left => exact left.trans ends
  | .error .malformed, _ => trivial
  | .error (.integerTooLong n), row => exact HasLongRow.within row ends

theorem IsSound.onValue (sound : IsSound cs r) (f : α → β) : IsSound cs (onValue f r) := by
  match r, sound with
  | .ok _, left => exact left
  | .error .malformed, _ => trivial
  | .error (.integerTooLong n), row => exact row

theorem IsSound.bind {next : α × List Char → Except ReadProblem (β × List Char)}
    (sound : IsSound cs r) (after : ∀ value rest, rest <:+ cs → IsSound rest (next (value, rest))) :
    IsSound cs (r >>= next) := by
  match r, sound with
  | .ok (value, rest), left => exact (after value rest left).within left
  | .error .malformed, _ => trivial
  | .error (.integerTooLong n), row => exact row

theorem skipSpace_suffix (cs : List Char) : skipSpace cs <:+ cs := List.dropWhile_suffix _

theorem suffix_of_skipSpace {c : Char} (eq : skipSpace cs = c :: rest) : rest <:+ cs :=
  (List.suffix_cons c rest).trans (eq ▸ skipSpace_suffix cs)

theorem readFraction_suffix (cs : List Char) : (readFraction cs).2 <:+ cs := by
  unfold readFraction
  split
  · split
    · exact List.suffix_refl _
    · exact (List.dropWhile_suffix _).trans (List.suffix_cons _ _)
  · exact List.suffix_refl _

theorem splitSign_suffix (cs : List Char) : (splitSign cs).2 <:+ cs := by
  unfold splitSign
  split
  · exact List.suffix_cons _ _
  · exact List.suffix_cons _ _
  · exact List.suffix_refl _

theorem readPower_suffix (cs : List Char) : (readPower cs).2 <:+ cs := by
  unfold readPower
  split
  · exact List.suffix_refl _
  · next c after =>
    split
    · dsimp only
      split
      · exact List.suffix_refl _
      · have digits := (List.dropWhile_suffix Char.isDigit).trans (splitSign_suffix after)
        exact digits.trans (List.suffix_cons c after)
    · exact List.suffix_refl _

theorem isSound_readNumber (negative : Bool) (cs : List Char) :
    IsSound cs (readNumber negative cs).found := by
  have parts := spanWhole_append cs
  have digits := isDigit_of_mem_spanWhole cs
  rw [readNumber_found]
  generalize spanWhole cs = spanned at parts digits ⊢
  obtain ⟨whole, afterWhole⟩ := spanned
  have left := (readPower_suffix _).trans (readFraction_suffix afterWhole)
  have ends : afterWhole <:+ cs := ⟨whole, parts⟩
  dsimp only
  split
  · trivial
  · split
    · split
      · next long => exact ⟨long, whole, ⟨[], afterWhole, parts⟩, rfl, digits⟩
      · exact left.trans ends
    · exact left.trans ends

theorem isSound_readScalar (cs : List Char) : IsSound cs (readScalar cs).found := by
  unfold readScalar
  split
  · split
    · exact List.drop_suffix _ _
    · trivial
  · split
    · next rest _ =>
      have sound := (isSound_readNumber true rest).within (List.suffix_cons '-' rest)
      cases h : readNumber true rest <;> rw [h] at sound <;> exact sound
    · exact isSound_readNumber false cs

theorem suffix_of_within {o : Option (Step α cs)} {short : cs.length ≤ ds.length} {s : Step β ds}
    (ends : cs <:+ ds) (left : ∀ {t}, o = some t → t.rest <:+ cs)
    (read : o.map (·.within short f) = some s) : s.rest <:+ ds := by
  obtain ⟨t, eq, rfl⟩ := Option.map_eq_some_iff.mp read
  exact (left eq).trans ends

theorem suffix_of_readUnits {s : Step (List Nat) cs} (read : readUnits cs = some s) :
    s.rest <:+ cs := by
  fun_induction readUnits cs with
  | case1 | case4 | case6 | case7 => cases read
  | case2 rest =>
    cases read
    exact List.suffix_cons _ _
  | case3 a b c d rest n unit ih =>
    exact suffix_of_within (List.suffix_append ['\\', 'u', a, b, c, d] rest) ih read
  | case5 c rest _ x escape ih => exact suffix_of_within (List.suffix_append ['\\', c] rest) ih read
  | case8 c rest _ _ _ _ ih => exact suffix_of_within (List.suffix_cons c rest) ih read

theorem isSound_readString (cs : List Char) : IsSound cs (readString cs).found := by
  unfold readString
  split
  · next s read => exact suffix_of_readUnits read
  · trivial

/-- All that is read of texts shorter than `n` is read by sound steps. -/
def SoundBelow (n : Nat) : Prop :=
  ∀ cs : List Char, cs.length < n →
    IsSound cs (readValue cs).found ∧ IsSound cs (readItems cs).found ∧
      IsSound cs (readMembers cs).found

theorem length_after_skipSpace {c : Char} (eq : skipSpace cs = c :: rest) :
    (skipSpace rest).length < cs.length := by
  have inner := length_skipSpace rest
  have outer := length_skipSpace cs
  rw [eq, List.length_cons] at outer
  omega

theorem isSound_readValue (below : SoundBelow cs.length) : IsSound cs (readValue cs).found := by
  by_cases string : ∃ rest, cs = '"' :: rest
  · obtain ⟨rest, rfl⟩ := string
    rw [readValue_string]
    exact ((isSound_readString rest).onValue _).within (List.suffix_cons _ _)
  by_cases array : ∃ rest, cs = '[' :: rest
  · obtain ⟨rest, rfl⟩ := array
    have inner := (below (skipSpace rest) (Nat.lt_succ_of_le (length_skipSpace rest))).2.1
    rw [readValue_array]
    split
    · next after eq => exact (suffix_of_skipSpace eq).trans (List.suffix_cons '[' rest)
    · exact (inner.onValue _).within ((skipSpace_suffix rest).trans (List.suffix_cons '[' rest))
  by_cases object : ∃ rest, cs = '\x7b' :: rest
  · obtain ⟨rest, rfl⟩ := object
    have inner := (below (skipSpace rest) (Nat.lt_succ_of_le (length_skipSpace rest))).2.2
    rw [readValue_object]
    split
    · next after eq => exact (suffix_of_skipSpace eq).trans (List.suffix_cons '\x7b' rest)
    · exact (inner.onValue _).within ((skipSpace_suffix rest).trans (List.suffix_cons '\x7b' rest))
  rw [readValue_scalar (not_exists.mp string) (not_exists.mp array) (not_exists.mp object)]
  exact isSound_readScalar cs

theorem isSound_readItems (below : SoundBelow cs.length) : IsSound cs (readItems cs).found := by
  rw [readItems_found]
  refine (isSound_readValue below).bind fun first rest ends => ?_
  dsimp only
  split
  · next after eq => exact suffix_of_skipSpace eq
  · next more eq =>
    have shorter := Nat.lt_of_lt_of_le (length_after_skipSpace eq) ends.length_le
    have inner := (below (skipSpace more) shorter).2.1
    exact (inner.onValue _).within ((skipSpace_suffix more).trans (suffix_of_skipSpace eq))
  · trivial

theorem isSound_readMembers (below : SoundBelow cs.length) :
    IsSound cs (readMembers cs).found := by
  by_cases key : ∃ rest, cs = '"' :: rest
  · obtain ⟨rest, rfl⟩ := key
    rw [readMembers_found]
    refine ((isSound_readString rest).bind fun key afterKey keyEnds => ?_).within
      (List.suffix_cons _ _)
    dsimp only
    split
    · next text colon =>
      have textEnds := (skipSpace_suffix text).trans (suffix_of_skipSpace colon)
      have shorter : (skipSpace text).length < rest.length :=
        Nat.lt_of_lt_of_le (length_after_skipSpace colon) keyEnds.length_le
      have value := (below (skipSpace text) (Nat.lt_succ_of_lt shorter)).1
      refine (value.bind fun value afterValue valueEnds => ?_).within textEnds
      dsimp only
      split
      · next after eq => exact suffix_of_skipSpace eq
      · next more eq =>
        have shorter' : (skipSpace more).length < rest.length :=
          Nat.lt_trans (Nat.lt_of_lt_of_le (length_after_skipSpace eq) valueEnds.length_le) shorter
        have inner := (below (skipSpace more) (Nat.lt_succ_of_lt shorter')).2.2
        exact (inner.onValue _).within ((skipSpace_suffix more).trans (suffix_of_skipSpace eq))
      · trivial
    · trivial
  · rw [readMembers_malformed (not_exists.mp key)]
    trivial

theorem soundBelow (n : Nat) : SoundBelow n := by
  induction n with
  | zero => exact fun _ short => absurd short (Nat.not_lt_zero _)
  | succ n ih =>
    intro cs short
    have below : SoundBelow cs.length := fun ds shorter =>
      ih ds (Nat.lt_of_lt_of_le shorter (Nat.lt_succ_iff.mp short))
    exact ⟨isSound_readValue below, isSound_readItems below, isSound_readMembers below⟩

/-- An integer that is too long to be read stands in the text. -/
theorem hasLongRow_of_read {text : String} (tooLong : read text = .error (.integerTooLong n)) :
    HasLongRow n text.toList := by
  have sound := isSound_readValue (soundBelow (skipSpace text.toList).length)
  rw [read] at tooLong
  split at tooLong
  · next e eq =>
    cases tooLong
    rw [eq] at sound
    exact HasLongRow.within sound (skipSpace_suffix _)
  · split at tooLong <;> cases tooLong

end LineCalc.Json
