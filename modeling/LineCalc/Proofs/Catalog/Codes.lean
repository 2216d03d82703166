import LineCalc.Catalog.Denomination
import LineCalc.Proofs.Token.Written

/-!
# Codes as names

An amount is written with the code of what it counts. Each code is one word for the lexer, and as a
name it means what it is the code of, with one exception: `pt`, the code of pints, means platinum.

Results:
1. `mem_listed_of_ofName?`, `mem_listed_of_ofSymbol?`: what a name or a symbol means is listed.
2. `isWord_code`, `ofName?_code`: the codes of what is listed.
-/

namespace LineCalc.Denomination

open LineCalc.Token

variable {d : Denomination} {name symbol : String}

/-! ## What is listed -/

/-- All that has a code in the catalog. -/
def listed : List Denomination :=
  Currency.listed.map .currency ++ Crypto.all.map .crypto ++ Metal.all.map .metal ++
    MeasureUnit.all.map .unit

theorem of_orElse {α : Type} {first other : Option α} {a : α} (h : (first <|> other) = some a) :
    first = some a ∨ other = some a := by
  cases first with
  | none => exact .inr h
  | some b => exact .inl h

theorem mem_of_currency {c : Currency} (h : Currency.ofName? name = some c) :
    c ∈ Currency.listed := by
  rcases of_orElse h with h | h
  · exact List.mem_of_find?_eq_some h
  · rcases of_orElse h with h | h <;> exact List.mem_of_find?_eq_some h

theorem mem_of_crypto {k : Crypto} (h : Crypto.ofName? name = some k) : k ∈ Crypto.all := by
  rcases of_orElse h with h | h
  · exact List.mem_of_find?_eq_some h
  · rcases of_orElse h with h | h <;> exact List.mem_of_find?_eq_some h

theorem mem_of_metal {m : Metal} (h : Metal.ofName? name = some m) : m ∈ Metal.all := by
  rcases of_orElse h with h | h <;> exact List.mem_of_find?_eq_some h

theorem mem_of_unit {u : MeasureUnit} (h : MeasureUnit.ofName? name = some u) :
    u ∈ MeasureUnit.all := by
  rcases of_orElse h with h | h
  · exact List.mem_of_find?_eq_some h
  · rcases of_orElse h with h | h <;> exact List.mem_of_find?_eq_some h

theorem mem_listed_of_ofName? (h : ofName? name = some d) : d ∈ listed := by
  simp only [listed, List.mem_append, List.mem_map]
  rcases of_orElse h with h | h
  · obtain ⟨c, found, rfl⟩ := Option.map_eq_some_iff.mp h
    exact .inl (.inl (.inl ⟨c, mem_of_currency found, rfl⟩))
  rcases of_orElse h with h | h
  · obtain ⟨k, found, rfl⟩ := Option.map_eq_some_iff.mp h
    exact .inl (.inl (.inr ⟨k, mem_of_crypto found, rfl⟩))
  rcases of_orElse h with h | h
  · obtain ⟨m, found, rfl⟩ := Option.map_eq_some_iff.mp h
    exact .inl (.inr ⟨m, mem_of_metal found, rfl⟩)
  · obtain ⟨u, found, rfl⟩ := Option.map_eq_some_iff.mp h
    exact .inr ⟨u, mem_of_unit found, rfl⟩

theorem mem_listed_of_ofSymbol? (h : ofSymbol? symbol = some d) : d ∈ listed := by
  simp only [listed, List.mem_append, List.mem_map]
  rcases of_orElse h with h | h
  · obtain ⟨c, found, rfl⟩ := Option.map_eq_some_iff.mp h
    exact .inl (.inl (.inl ⟨c, List.mem_of_find?_eq_some found, rfl⟩))
  · obtain ⟨k, found, rfl⟩ := Option.map_eq_some_iff.mp h
    exact .inl (.inl (.inr ⟨k, List.mem_of_find?_eq_some found, rfl⟩))

/-! ## Numbers for texts -/

/-- A number for some bytes, another one for others. -/
def numberOfBytes (bytes : List UInt8) : Nat :=
  bytes.foldr (fun b n => 257 * n + (b.toNat + 1)) 0

/-- A number for a text, another one for others. The kernel compares numbers at once, texts byte by
byte. -/
def numberOf (text : String) : Nat := numberOfBytes text.toByteArray.data.toList

theorem eq_of_numberOfBytes {bs cs : List UInt8} (same : numberOfBytes bs = numberOfBytes cs) :
    bs = cs := by
  induction bs generalizing cs with
  | nil =>
    cases cs with
    | nil => rfl
    | cons c cs => exact absurd same (by simp [numberOfBytes])
  | cons b bs ih =>
    cases cs with
    | nil => exact absurd same (by simp [numberOfBytes])
    | cons c cs =>
      have sum : 257 * numberOfBytes bs + (b.toNat + 1) =
          257 * numberOfBytes cs + (c.toNat + 1) := same
      have small := b.toNat_lt
      have small' := c.toNat_lt
      obtain ⟨first, others⟩ : b.toNat = c.toNat ∧ numberOfBytes bs = numberOfBytes cs := by omega
      rw [UInt8.toNat_inj.mp first, ih others]

theorem eq_of_numberOf {text text' : String} (same : numberOf text = numberOf text') :
    text = text' :=
  String.toByteArray_inj.mp (ByteArray.ext (Array.ext' (eq_of_numberOfBytes same)))

theorem beq_eq_numberOf (text text' : String) :
    (text == text') = Nat.beq (numberOf text) (numberOf text') := by
  rw [Bool.eq_iff_iff, beq_iff_eq, Nat.beq_eq]
  exact ⟨congrArg numberOf, eq_of_numberOf⟩

theorem contains_eq_numberOf (texts : List String) (text : String) :
    texts.contains text = texts.any fun other => Nat.beq (numberOf text) (numberOf other) := by
  simp only [List.contains_eq_any_beq, beq_eq_numberOf]

/-! ## Codes -/

/-- Plain numbers and percentages have no code. -/
theorem ne_of_mem_listed (mem : d ∈ listed) : d ≠ .plain ∧ d ≠ .percent := by
  simp only [listed, List.mem_append, List.mem_map] at mem
  rcases mem with ((⟨c, -, rfl⟩ | ⟨k, -, rfl⟩) | ⟨m, -, rfl⟩) | ⟨u, -, rfl⟩ <;> simp

/-- The text is scanned as one word. -/
def isOneWord (text : String) : Bool :=
  match text.toList with
  | c :: cs => lexeme {} c cs == (.word, cs.length)
  | [] => false

set_option maxRecDepth 100000 in
theorem isOneWord_codes : listed.all (fun d => isOneWord d.code) = true := by
  decide +kernel

theorem isWord_code (mem : d ∈ listed) : IsWord d.code.toList := by
  have word := List.all_eq_true.mp isOneWord_codes d mem
  unfold isOneWord at word
  split at word
  · next c cs eq =>
    rw [eq]
    exact isWord_of_lexeme (beq_iff_eq.mp word)
  · cases word

set_option maxRecDepth 100000 in
theorem ofName?_codes :
    listed.all (fun d => d == .unit .pint || ofName? d.code == some d) = true := by
  simp only [listed, List.all_append, Bool.and_eq_true, ofName?, Currency.ofName?, Crypto.ofName?,
    Metal.ofName?, MeasureUnit.ofName?, Currency.withCode?, Currency.ofSymbol?, Crypto.withCode?,
    Metal.withCode?, Name.normalize, Text.words, Text.lower, Text.upper, Text.trim,
    String.toList_ofList, contains_eq_numberOf, beq_eq_numberOf]
  -- Currencies, tokens, metals and units are checked apart, so that no check grows large.
  refine ⟨⟨⟨?_, ?_⟩, ?_⟩, ?_⟩
  · decide +kernel
  · decide +kernel
  · decide +kernel
  · decide +kernel

/-- As a name, the code of anything but pints means that. -/
theorem ofName?_code (mem : d ∈ listed) (other : d ≠ .unit .pint) : ofName? d.code = some d := by
  have named := List.all_eq_true.mp ofName?_codes d mem
  simpa [other] using named

end LineCalc.Denomination
