import LineCalc.Json.Writer
import LineCalc.Proofs.Json.Reader

/-!
# Strings written and read

A string is written in ASCII: a character that is not shown as it is stands as its code units, one of
beyond the first 65536 as a pair of halves. The reader joins the halves again.

Results:
1. `Json.joinHalves_units`: the code units of characters are joined to these characters.
2. `Json.readString_written`: a written string is read as itself.
-/

namespace LineCalc.Json

open LineCalc.Text

/-! ## Code units -/

/-- The code units of a character. -/
def units (c : Char) : List Nat :=
  if c.toNat < 0x10000 then [c.toNat]
  else [0xd800 + (c.toNat - 0x10000) / 0x400, 0xdc00 + (c.toNat - 0x10000) % 0x400]

theorem joinHalves_cons {n : Nat} (whole : isHighHalf n = false) (ns : List Nat) :
    joinHalves (n :: ns) = unitChar n :: joinHalves ns := by
  cases ns with
  | nil => rfl
  | cons lo ns => simp [joinHalves, whole]

theorem toNat_lt (c : Char) : c.toNat < 0x110000 := by
  rcases c.valid with low | high
  · exact Nat.lt_trans low (by decide)
  · exact high.2

/-- No character is half of a pair. -/
theorem not_half (c : Char) : isHighHalf c.toNat = false ∧ isLowHalf c.toNat = false := by
  have valid : c.toNat < 0xd800 ∨ 0xdfff < c.toNat ∧ c.toNat < 0x110000 := c.valid
  simp only [isHighHalf, isLowHalf, Bool.and_eq_false_iff, decide_eq_false_iff_not]
  omega

/-- Characters are joined from their code units. -/
theorem joinHalves_units (cs : List Char) : joinHalves (cs.flatMap units) = cs := by
  induction cs with
  | nil => rfl
  | cons c cs ih =>
    rw [List.flatMap_cons, units]
    split
    · obtain ⟨notHigh, notLow⟩ := not_half c
      rw [List.singleton_append, joinHalves_cons notHigh, ih]
      simp [unitChar, notHigh, notLow]
    · next beyond =>
      have limit := toNat_lt c
      have high : isHighHalf (0xd800 + (c.toNat - 0x10000) / 0x400) = true := by
        simp only [isHighHalf, Bool.and_eq_true, decide_eq_true_eq]
        omega
      have low : isLowHalf (0xdc00 + (c.toNat - 0x10000) % 0x400) = true := by
        simp only [isLowHalf, Bool.and_eq_true, decide_eq_true_eq]
        omega
      have sum : 0x10000 + (0xd800 + (c.toNat - 0x10000) / 0x400 - 0xd800) * 0x400 +
          (0xdc00 + (c.toNat - 0x10000) % 0x400 - 0xdc00) = c.toNat := by omega
      show joinHalves (_ :: _ :: cs.flatMap units) = _
      rw [joinHalves, high, low, sum, ih]
      simp

/-! ## Escapes -/

theorem hexValue?_hexDigit {d : Nat} (digit : d < 16) : hexValue? (hexDigit d) = some d := by
  have all : ∀ d < 16, hexValue? (hexDigit d) = some d := by decide
  exact all d digit

theorem hexUnit?_hexDigits {n : Nat} (short : n < 0x10000) : ∃ a b c d,
    hexDigits 4 n = [a, b, c, d] ∧ hexUnit? a b c d = some n := by
  refine ⟨_, _, _, _, rfl, ?_⟩
  have value (m : Nat) : hexValue? (hexDigit (m % 16)) = some (m % 16) :=
    hexValue?_hexDigit (Nat.mod_lt m (by decide))
  simp only [hexUnit?, value, Option.bind_some, bind, pure]
  congr 1
  omega

/-- The code units of a string after its opening quote, and the rest. -/
def unitsAndRest (cs : List Char) : Option (List Nat × List Char) :=
  (readUnits cs).map fun s => (s.value, s.rest)

theorem unitsAndRest_quote (cs : List Char) : unitsAndRest ('"' :: cs) = some ([], cs) := by
  rw [unitsAndRest, readUnits]
  rfl

theorem unitsAndRest_unitEscape {n : Nat} (short : n < 0x10000) (cs : List Char) :
    unitsAndRest (unitEscape n ++ cs) = (unitsAndRest cs).map (Prod.map (n :: ·) id) := by
  obtain ⟨a, b, c, d, digits, value⟩ := hexUnit?_hexDigits short
  rw [unitEscape, digits]
  show unitsAndRest ('\\' :: 'u' :: a :: b :: c :: d :: cs) = _
  rw [unitsAndRest, readUnits, value, unitsAndRest]
  cases readUnits cs <;> rfl

theorem unitsAndRest_escaped {c x : Char} (escape : escaped? c = some x) (cs : List Char) :
    unitsAndRest ('\\' :: c :: cs) = (unitsAndRest cs).map (Prod.map (x.toNat :: ·) id) := by
  have notUnit : c ≠ 'u' := by
    rintro rfl
    cases escape
  rw [unitsAndRest, readUnits, escape, unitsAndRest]
  · cases readUnits cs <;> rfl
  · rintro a b c d rest rfl
    exact absurd rfl notUnit

theorem unitsAndRest_plain {c : Char} (visible : ¬ c.toNat < 0x20) (notQuote : c ≠ '"')
    (notBackslash : c ≠ '\\') (cs : List Char) :
    unitsAndRest (c :: cs) = (unitsAndRest cs).map (Prod.map (c.toNat :: ·) id) := by
  rw [unitsAndRest, readUnits, if_neg visible, unitsAndRest]
  · cases readUnits cs <;> rfl
  · exact notQuote
  · intro a b c d rest eq
    exact absurd eq notBackslash
  · intro x rest eq
    exact absurd eq notBackslash

/-- A character is read as its code units from what is written for it. -/
theorem unitsAndRest_escapeChar (c : Char) (cs : List Char) :
    unitsAndRest (escapeChar c ++ cs) = (unitsAndRest cs).map (Prod.map (units c ++ ·) id) := by
  have letter {c x : Char} (escape : escaped? x = some c) (short : c.toNat < 0x10000) :
      unitsAndRest ('\\' :: x :: cs) = (unitsAndRest cs).map (Prod.map (units c ++ ·) id) := by
    rw [unitsAndRest_escaped escape, units, if_pos short]
    rfl
  unfold escapeChar
  simp only [beq_iff_eq]
  split
  · next eq => exact eq ▸ letter (x := '"') rfl (by decide)
  split
  · next eq => exact eq ▸ letter (x := '\\') rfl (by decide)
  split
  · next eq => exact eq ▸ letter (x := 'n') rfl (by decide)
  split
  · next eq => exact eq ▸ letter (x := 'r') rfl (by decide)
  split
  · next eq => exact eq ▸ letter (x := 't') rfl (by decide)
  split
  · next eq => exact eq ▸ letter (x := 'b') rfl (by decide)
  split
  · next eq => exact eq ▸ letter (x := 'f') rfl (by decide)
  split
  · next notQuote notBackslash _ _ _ _ _ visible =>
    simp only [Bool.and_eq_true, decide_eq_true_eq] at visible
    have short : c.toNat < 0x10000 := Nat.lt_trans visible.2 (by decide)
    rw [units, if_pos short]
    exact unitsAndRest_plain (Nat.not_lt.mpr visible.1) notQuote notBackslash cs
  split
  · next short =>
    rw [units, if_pos short]
    exact unitsAndRest_unitEscape short cs
  · next beyond =>
    have limit := toNat_lt c
    have high : 0xd800 + (c.toNat - 0x10000) / 0x400 < 0x10000 := by omega
    have low : 0xdc00 + (c.toNat - 0x10000) % 0x400 < 0x10000 := by omega
    rw [units, if_neg beyond, List.append_assoc, unitsAndRest_unitEscape high,
      unitsAndRest_unitEscape low, Option.map_map]
    rfl

/-- A written string is read as itself, after its opening quote. -/
theorem readString_written (cs rest : List Char) :
    (readString (cs.flatMap escapeChar ++ '"' :: rest)).found = .ok (String.ofList cs, rest) := by
  have read : unitsAndRest (cs.flatMap escapeChar ++ '"' :: rest) =
      some (cs.flatMap units, rest) := by
    induction cs with
    | nil => exact unitsAndRest_quote rest
    | cons c cs ih =>
      rw [List.flatMap_cons, List.append_assoc, unitsAndRest_escapeChar, ih]
      rfl
  obtain ⟨s, eq, same⟩ := Option.map_eq_some_iff.mp read
  obtain ⟨value, left⟩ := Prod.mk.inj same
  rw [readString, eq]
  show Except.ok (String.ofList (joinHalves s.value), s.rest) = _
  rw [value, left, joinHalves_units]

end LineCalc.Json
