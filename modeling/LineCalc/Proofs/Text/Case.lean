import LineCalc.Text.Case
import Mathlib

/-!
# Upper case

Upper-casing moves some characters and expands some others. What they become is neither moved nor
expanded itself, so a text in upper case stays as it is.

Results:
1. `upper_upper`: upper-casing is idempotent.
-/

namespace LineCalc.Text

open Table

variable {r s : CaseRun} {n : Nat} {c d : Char}

/-! ## Runs -/

namespace Table

theorem CaseRun.covers_iff : r.covers n = true ↔
    r.first ≤ n ∧ n ≤ r.last ∧ (n - r.first) % r.step = 0 := by
  simp [CaseRun.covers, and_assoc]

/-- A run of one code point. -/
def CaseRun.single (n : Nat) : CaseRun := ⟨n, n, 1, 0⟩

theorem CaseRun.covers_single : (CaseRun.single n).covers n = true := by
  simp [CaseRun.covers, CaseRun.single]

/-- The code points that those of a run are moved to. -/
def CaseRun.image (r : CaseRun) : CaseRun :=
  { r with first := (r.first + r.shift).toNat, last := (r.last + r.shift).toNat }

/-- Two runs have no code point in common, for their bounds or because one has only odd code points
and the other one only even ones. -/
def CaseRun.apart (r s : CaseRun) : Bool :=
  Nat.blt r.last s.first || Nat.blt s.last r.first ||
    (s.step == 2 && (r.step == 2 || r.first == r.last) && (r.first + s.first) % 2 == 1)

theorem CaseRun.not_covers_of_apart (covers : r.covers n = true) (apart : r.apart s = true) :
    s.covers n = false := by
  obtain ⟨first, last, steps⟩ := covers_iff.mp covers
  simp only [CaseRun.apart, Bool.or_eq_true, Bool.and_eq_true, Nat.blt_eq, beq_iff_eq] at apart
  rw [← Bool.not_eq_true, covers_iff]
  rintro ⟨first', last', steps'⟩
  rcases apart with (below | above) | ⟨⟨two, two' | one⟩, odd⟩
  · omega
  · omega
  · rw [two] at steps'
    rw [two'] at steps
    omega
  · rw [two] at steps'
    omega

theorem CaseRun.image_covers (covers : r.covers n = true) (nonneg : 0 ≤ r.first + r.shift) :
    r.image.covers (n + r.shift).toNat = true := by
  obtain ⟨first, last, steps⟩ := covers_iff.mp covers
  have moved : (n + r.shift).toNat - (r.first + r.shift).toNat = n - r.first := by omega
  refine covers_iff.mpr ⟨?_, ?_, ?_⟩
  · exact Int.toNat_le_toNat (by omega)
  · exact Int.toNat_le_toNat (by omega)
  · exact (congrArg (· % r.step) moved).trans steps

end Table

/-! ## Settled code points -/

/-- The small letters of ASCII. -/
def asciiRun : CaseRun := ⟨0x61, 0x7a, 1, -32⟩

/-- All code points outside ASCII that upper-casing changes. -/
def changedRuns : List CaseRun := upperExpansions.map (CaseRun.single ·.1) ++ upperRuns

/-- Upper-casing leaves a code point as it is. -/
def IsSettled (n : Nat) : Prop :=
  asciiRun.covers n = false ∧ ∀ r ∈ changedRuns, r.covers n = false

theorem isSettled_of_apart (covers : r.covers n = true)
    (apart : (asciiRun :: changedRuns).all r.apart = true) : IsSettled n := by
  rw [List.all_cons, Bool.and_eq_true, List.all_eq_true] at apart
  refine ⟨CaseRun.not_covers_of_apart covers apart.1, fun s mem => ?_⟩
  exact CaseRun.not_covers_of_apart covers (apart.2 s mem)

theorem le_first_of_changedRuns : ∀ r ∈ changedRuns, 128 ≤ r.first := by
  have all : changedRuns.all (fun r => Nat.ble 128 r.first) = true := by decide +kernel
  exact fun r mem => Nat.le_of_ble_eq_true (List.all_eq_true.mp all r mem)

theorem isSettled_of_ascii (ascii : n < 128) (notLower : n < 97 ∨ 122 < n) : IsSettled n := by
  refine ⟨?_, fun r mem => ?_⟩
  · rw [← Bool.not_eq_true, CaseRun.covers_iff]
    rintro ⟨first, last, -⟩
    exact notLower.elim (Nat.not_lt.mpr first) (Nat.not_lt.mpr last)
  · rw [← Bool.not_eq_true, CaseRun.covers_iff]
    rintro ⟨first, -⟩
    exact Nat.not_lt.mpr (Nat.le_trans (le_first_of_changedRuns r mem) first) ascii

theorem isSettled_ofNat (settled : IsSettled n) : IsSettled (Char.ofNat n).toNat := by
  rw [Char.toNat_ofNat]
  split
  · exact settled
  · exact isSettled_of_ascii (by decide) (.inl (by decide))

theorem isSettled_of_mem_expansion {codes : List Nat} (mem : (n, codes) ∈ upperExpansions) :
    ∀ code ∈ codes, IsSettled code := by
  have all : upperExpansions.all (fun e => e.2.all fun code =>
      (asciiRun :: changedRuns).all (CaseRun.single code).apart) = true := by
    decide +kernel
  intro code memCode
  have apart := List.all_eq_true.mp (List.all_eq_true.mp all _ mem) code memCode
  exact isSettled_of_apart CaseRun.covers_single apart

theorem isSettled_of_run (mem : r ∈ upperRuns) (covers : r.covers n = true) :
    IsSettled (n + r.shift).toNat := by
  have all : upperRuns.all (fun r => decide (0 ≤ r.first + r.shift) &&
      (asciiRun :: changedRuns).all r.image.apart) = true := by decide +kernel
  have this := List.all_eq_true.mp all r mem
  rw [Bool.and_eq_true, decide_eq_true_eq] at this
  exact isSettled_of_apart (CaseRun.image_covers covers this.1) this.2

/-! ## Characters -/

theorem toUpper_of_isSettled (settled : IsSettled c.toNat) : c.toUpper = c := by
  have notLower := settled.1
  rw [← Bool.not_eq_true, CaseRun.covers_iff] at notLower
  rw [Char.toUpper, dif_neg]
  rintro ⟨first, last⟩
  exact notLower ⟨first, last, Nat.mod_one _⟩

theorem upperChar_of_isSettled (settled : IsSettled c.toNat) : upperChar c = [c] := by
  have noExpansion : upperExpansions.lookup c.toNat = none := by
    refine List.lookup_eq_none_iff.mpr fun e mem => ?_
    have other := settled.2 _ (List.mem_append_left _ (List.mem_map_of_mem mem))
    refine bne_iff_ne.mpr fun same => ?_
    rw [same, CaseRun.covers_single] at other
    cases other
  have noRun : upperRuns.find? (·.covers c.toNat) = none := by
    refine List.find?_eq_none.mpr fun r mem => ?_
    rw [settled.2 r (List.mem_append_right _ mem)]
    exact Bool.false_ne_true
  rw [upperChar, toUpper_of_isSettled settled, noExpansion, shifted, noRun]
  exact ite_self _

theorem isSettled_toUpper (ascii : c.toNat < 128) : IsSettled c.toUpper.toNat := by
  have all : ∀ n < 128, (Char.ofNat n).toUpper.toNat < 128 ∧
      ((Char.ofNat n).toUpper.toNat < 97 ∨ 122 < (Char.ofNat n).toUpper.toNat) := by
    decide +kernel
  have this := all c.toNat ascii
  rw [Char.ofNat_toNat] at this
  exact isSettled_of_ascii this.1 this.2

/-- The upper-case form of a character has settled characters only. -/
theorem isSettled_of_mem_upperChar (mem : d ∈ upperChar c) : IsSettled d.toNat := by
  rw [upperChar] at mem
  split at mem
  · next ascii =>
    rw [List.mem_singleton.mp mem]
    exact isSettled_toUpper ascii
  · next notAscii =>
    split at mem
    · next codes expansion =>
      obtain ⟨code, memCode, rfl⟩ := List.mem_map.mp mem
      obtain ⟨before, after, eq, -⟩ := List.lookup_eq_some_iff.mp expansion
      have inTable : (c.toNat, codes) ∈ upperExpansions := by simp [eq]
      exact isSettled_ofNat (isSettled_of_mem_expansion inTable code memCode)
    · next noExpansion =>
      rw [List.mem_singleton.mp mem, shifted]
      split
      · next r found =>
        have covers : r.covers c.toNat = true :=
          List.find?_some (p := fun r : CaseRun => r.covers c.toNat) found
        exact isSettled_ofNat (isSettled_of_run (List.mem_of_find?_eq_some found) covers)
      · next noRun =>
        refine ⟨?_, fun r memRuns => ?_⟩
        · rw [← Bool.not_eq_true, CaseRun.covers_iff]
          rintro ⟨-, last, -⟩
          exact notAscii (Nat.lt_of_le_of_lt last (by decide))
        · rcases List.mem_append.mp memRuns with single | run
          · obtain ⟨e, memE, rfl⟩ := List.mem_map.mp single
            have other := List.lookup_eq_none_iff.mp noExpansion e memE
            rw [← Bool.not_eq_true, CaseRun.covers_iff]
            rintro ⟨first, last, -⟩
            exact bne_iff_ne.mp other (Nat.le_antisymm last first)
          · exact Bool.eq_false_iff.mpr (List.find?_eq_none.mp noRun r run)

/-! ## Texts -/

/-- Upper case stays as it is. -/
theorem upper_upper (text : String) : upper (upper text) = upper text := by
  have settled : ∀ d ∈ (upper text).toList, upperChar d = [d] := by
    intro d mem
    rw [upper, String.toList_ofList] at mem
    obtain ⟨c, -, memUpper⟩ := List.mem_flatMap.mp mem
    exact upperChar_of_isSettled (isSettled_of_mem_upperChar memUpper)
  have same : (upper text).toList.flatMap upperChar = (upper text).toList := by
    rw [List.flatMap_congr settled]
    exact List.flatMap_singleton' _
  rw [upper, same, String.ofList_toList]

end LineCalc.Text
