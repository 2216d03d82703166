import LineCalc.Decimal.Numeral
import LineCalc.Entries
import LineCalc.Json.Basic

/-!
# Reading JSON

A reader for JSON texts with three additions: the words `NaN`, `Infinity` and `-Infinity` are
numbers, a repeated key takes its last value, and a code unit without its other half is read as the
replacement character. Every step hands on a rest that is shorter than what it was given, so the
reader ends.
-/

namespace LineCalc.Json

open LineCalc.Decimal

/-- Why a text is no JSON text. -/
inductive ReadProblem
  | malformed
  /-- An integer of more digits than are read. -/
  | integerTooLong (digits : Nat)
deriving DecidableEq, Repr

/-- What a step has read from `cs`, and the shorter rest. -/
structure Step (α : Type) (cs : List Char) where
  value : α
  rest : List Char
  shorter : rest.length < cs.length

/-- The outcome of a step. -/
abbrev Outcome (α : Type) (cs : List Char) := Except ReadProblem (Step α cs)

/-- The step of a longer text that goes on with a given step. -/
def Step.within {cs ds : List Char} (s : Step α cs) (h : cs.length ≤ ds.length) (f : α → β) :
    Step β ds :=
  ⟨f s.value, s.rest, Nat.lt_of_lt_of_le s.shorter h⟩

/-- The blanks between the parts of a JSON text. -/
def isSpace (c : Char) : Bool :=
  c == ' ' || c == '\t' || c == '\n' || c == '\r'

/-- The text after blanks. -/
def skipSpace (cs : List Char) : List Char := cs.dropWhile isSpace

theorem length_skipSpace (cs : List Char) : (skipSpace cs).length ≤ cs.length :=
  (List.dropWhile_suffix isSpace).length_le

/-- The value of a hexadecimal digit. -/
def hexValue? (c : Char) : Option Nat :=
  if c.isDigit then some (c.toNat - '0'.toNat)
  else if 'a' ≤ c && c ≤ 'f' then some (c.toNat - 'a'.toNat + 10)
  else if 'A' ≤ c && c ≤ 'F' then some (c.toNat - 'A'.toNat + 10)
  else none

/-- A code unit of four hexadecimal digits. -/
def hexUnit? (a b c d : Char) : Option Nat := do
  return (((← hexValue? a) * 16 + (← hexValue? b)) * 16 + (← hexValue? c)) * 16 + (← hexValue? d)

/-- The character that a letter after a backslash stands for. -/
def escaped? : Char → Option Char
  | '"' => some '"'
  | '\\' => some '\\'
  | '/' => some '/'
  | 'b' => some '\x08'
  | 'f' => some '\x0c'
  | 'n' => some '\n'
  | 'r' => some '\r'
  | 't' => some '\t'
  | _ => none

/-- The first half of a pair of code units. -/
def isHighHalf (n : Nat) : Bool := 0xd800 ≤ n && n < 0xdc00

/-- The second half of a pair of code units. -/
def isLowHalf (n : Nat) : Bool := 0xdc00 ≤ n && n < 0xe000

/-- The character of one code unit, the replacement character for half a pair. -/
def unitChar (n : Nat) : Char :=
  if isHighHalf n || isLowHalf n then '\ufffd' else Char.ofNat n

/-- Code units as characters: two halves in a row are one character. -/
def joinHalves : List Nat → List Char
  | [] => []
  | [n] => [unitChar n]
  | hi :: lo :: ns =>
    if isHighHalf hi && isLowHalf lo then
      Char.ofNat (0x10000 + (hi - 0xd800) * 0x400 + (lo - 0xdc00)) :: joinHalves ns
    else unitChar hi :: joinHalves (lo :: ns)

/-- The code units of a string after its opening quote, up to its closing quote. -/
def readUnits : (cs : List Char) → Option (Step (List Nat) cs)
  | [] => none
  | '"' :: cs => some ⟨[], cs, Nat.lt_succ_self _⟩
  | '\\' :: 'u' :: a :: b :: c :: d :: cs =>
    match hexUnit? a b c d with
    | some n => (readUnits cs).map (·.within (by simp only [List.length_cons]; omega) (n :: ·))
    | none => none
  | '\\' :: c :: cs =>
    match escaped? c with
    | some x =>
      (readUnits cs).map (·.within (by simp only [List.length_cons]; omega) (x.toNat :: ·))
    | none => none
  | c :: cs =>
    if c.toNat < 0x20 then none else (readUnits cs).map (·.within (Nat.le_succ _) (c.toNat :: ·))

/-- A string after its opening quote. -/
def readString (cs : List Char) : Outcome String cs :=
  match readUnits cs with
  | some s => .ok (s.within (Nat.le_refl _) fun units => String.ofList (joinHalves units))
  | none => .error .malformed

/-- The leading digits of a text and what follows them. -/
def spanDigitChars (cs : List Char) : List Char × List Char :=
  (cs.takeWhile Char.isDigit, cs.dropWhile Char.isDigit)

theorem length_spanDigitChars (cs : List Char) :
    (spanDigitChars cs).1.length + (spanDigitChars cs).2.length = cs.length := by
  rw [spanDigitChars, ← List.length_append, List.takeWhile_append_dropWhile]

/-- The digits after a point, which belong to the number only if there are any. -/
def readFraction (cs : List Char) : List Char × List Char :=
  match cs with
  | '.' :: after => if (spanDigitChars after).1.isEmpty then ([], cs) else spanDigitChars after
  | _ => ([], cs)

theorem length_readFraction (cs : List Char) : (readFraction cs).2.length ≤ cs.length := by
  unfold readFraction
  split
  · rename_i after
    split
    · simp
    · have := length_spanDigitChars after
      simp only [List.length_cons]
      omega
  · simp

/-- The power of ten at the start of a text, if there is a whole one. -/
def readPower (cs : List Char) : Option Int × List Char :=
  match cs with
  | [] => (none, cs)
  | c :: after =>
    if c == 'e' || c == 'E' then
      let (negative, digits) := splitSign after
      let (ds, rest) := spanDigitChars digits
      if ds.isEmpty then (none, cs)
      else
        let n : Int := Text.ofDecimalDigits (ds.map fun d => d.toNat - '0'.toNat)
        (some (if negative then -n else n), rest)
    else (none, cs)

theorem length_splitSign (cs : List Char) : (splitSign cs).2.length ≤ cs.length := by
  unfold splitSign
  split <;> simp

theorem length_readPower (cs : List Char) : (readPower cs).2.length ≤ cs.length := by
  unfold readPower
  split
  · simp
  · rename_i c after
    have h1 := length_splitSign after
    have h2 := length_spanDigitChars (splitSign after).2
    simp only [List.length_cons] at *
    split
    · split
      · simp
      · simp only
        omega
    · simp

/-- A number without its sign. A leading zero stands alone. -/
def readNumber (negative : Bool) (cs : List Char) : Outcome Json cs :=
  let (whole, afterWhole) := match cs with
    | '0' :: rest => (['0'], rest)
    | _ => spanDigitChars cs
  if h : whole.isEmpty ∨ ¬ afterWhole.length < cs.length then .error .malformed
  else
    let fraction := readFraction afterWhole
    let power := readPower fraction.2
    have shorter : power.2.length < cs.length := by
      have h1 := length_readPower fraction.2
      have h2 : fraction.2.length ≤ afterWhole.length := length_readFraction afterWhole
      have h3 : power.2.length ≤ fraction.2.length := h1
      omega
    let digits := Text.ofDecimalDigits ((whole ++ fraction.1).map fun d => d.toNat - '0'.toNat)
    if fraction.1.isEmpty && power.1.isNone then
      if whole.length > longestInteger then .error (.integerTooLong whole.length)
      else .ok ⟨.integer (if negative then -(digits : Int) else digits), power.2, shorter⟩
    else
      let x := nearestFloat digits (power.1.getD 0 - fraction.1.length)
      .ok ⟨.decimal (if negative then -x else x), power.2, shorter⟩

/-- The text after a given word. -/
def afterWord? (word cs : List Char) : Option (List Char) :=
  if word.isPrefixOf cs then some (cs.drop word.length) else none

/-- The words that are values. -/
def words : List (List Char × Json) := [
  (['n', 'u', 'l', 'l'], .null),
  (['t', 'r', 'u', 'e'], .bool true),
  (['f', 'a', 'l', 's', 'e'], .bool false),
  (['N', 'a', 'N'], .decimal (0.0 / 0.0)),
  (['I', 'n', 'f', 'i', 'n', 'i', 't', 'y'], .decimal (1.0 / 0.0)),
  (['-', 'I', 'n', 'f', 'i', 'n', 'i', 't', 'y'], .decimal (-1.0 / 0.0))]

/-- The word at the start of a text, by its value and length. -/
def wordAt? (cs : List Char) : Option (Json × Nat) :=
  (words.find? fun w => w.1.isPrefixOf cs).map fun w => (w.2, w.1.length)

/-- A word or a number. -/
def readScalar (cs : List Char) : Outcome Json cs :=
  match wordAt? cs with
  | some (value, n) =>
    if h : (cs.drop n).length < cs.length then .ok ⟨value, cs.drop n, h⟩ else .error .malformed
  | none =>
    match cs with
    | '-' :: rest => (readNumber true rest).map (·.within (Nat.le_succ _) id)
    | unsigned => readNumber false unsigned

mutual

/-- A value at the start of a text. -/
def readValue (cs : List Char) : Outcome Json cs :=
  match cs with
  | '"' :: rest =>
    match readString rest with
    | .ok s => .ok ⟨.string s.value, s.rest, Nat.lt_succ_of_lt s.shorter⟩
    | .error e => .error e
  | '[' :: rest =>
    match h : skipSpace rest with
    | ']' :: after =>
      .ok ⟨.array [], after, by
        have := length_skipSpace rest
        simp only [h, List.length_cons] at *
        omega⟩
    | inner =>
      have : inner.length < ('[' :: rest).length := by
        have := length_skipSpace rest
        simp only [h, List.length_cons] at *
        omega
      match readItems inner with
      | .ok s => .ok ⟨.array s.value, s.rest, Nat.lt_trans s.shorter this⟩
      | .error e => .error e
  | '\x7b' :: rest =>
    match h : skipSpace rest with
    | '\x7d' :: after =>
      .ok ⟨.object [], after, by
        have := length_skipSpace rest
        simp only [h, List.length_cons] at *
        omega⟩
    | inner =>
      have : inner.length < ('\x7b' :: rest).length := by
        have := length_skipSpace rest
        simp only [h, List.length_cons] at *
        omega
      match readMembers inner with
      | .ok s => .ok ⟨.object (Entries.ofPairs s.value), s.rest, Nat.lt_trans s.shorter this⟩
      | .error e => .error e
  | scalar => readScalar scalar
termination_by (cs.length, 0)

/-- The items of an array up to its closing bracket. -/
def readItems (cs : List Char) : Outcome (List Json) cs :=
  match readValue cs with
  | .error e => .error e
  | .ok first =>
    match h : skipSpace first.rest with
    | ']' :: after =>
      .ok ⟨[first.value], after, by
        have h1 := length_skipSpace first.rest
        have h2 := first.shorter
        simp only [h, List.length_cons] at *
        omega⟩
    | ',' :: more =>
      have shorter : (skipSpace more).length < cs.length := by
        have h1 := length_skipSpace first.rest
        have h2 := first.shorter
        have h3 := length_skipSpace more
        simp only [h, List.length_cons] at *
        omega
      match readItems (skipSpace more) with
      | .ok s => .ok ⟨first.value :: s.value, s.rest, Nat.lt_trans s.shorter shorter⟩
      | .error e => .error e
    | _ => .error .malformed
termination_by (cs.length, 1)

/-- The members of an object up to its closing brace. -/
def readMembers (cs : List Char) : Outcome (List (String × Json)) cs :=
  match cs with
  | '"' :: rest =>
    match readString rest with
    | .error e => .error e
    | .ok key =>
      match h : skipSpace key.rest with
      | ':' :: afterColon =>
        have shorter : (skipSpace afterColon).length < rest.length := by
          have h1 := length_skipSpace key.rest
          have h2 := key.shorter
          have h3 := length_skipSpace afterColon
          simp only [h, List.length_cons] at *
          omega
        match readValue (skipSpace afterColon) with
        | .error e => .error e
        | .ok value =>
          match h' : skipSpace value.rest with
          | '\x7d' :: after =>
            .ok ⟨[(key.value, value.value)], after, by
              have h1 := length_skipSpace value.rest
              have h2 := value.shorter
              simp only [h', List.length_cons] at *
              omega⟩
          | ',' :: more =>
            have shorter' : (skipSpace more).length < ('"' :: rest).length := by
              have h1 := length_skipSpace value.rest
              have h2 := value.shorter
              have h3 := length_skipSpace more
              simp only [h', List.length_cons] at *
              omega
            match readMembers (skipSpace more) with
            | .ok s =>
              .ok ⟨(key.value, value.value) :: s.value, s.rest, Nat.lt_trans s.shorter shorter'⟩
            | .error e => .error e
          | _ => .error .malformed
      | _ => .error .malformed
  | _ => .error .malformed
termination_by (cs.length, 1)

end

/-- The value of a JSON text, which may have blanks around it and nothing else. -/
def read (text : String) : Except ReadProblem Json :=
  match readValue (skipSpace text.toList) with
  | .error e => .error e
  | .ok s => if (skipSpace s.rest).isEmpty then .ok s.value else .error .malformed

end LineCalc.Json
