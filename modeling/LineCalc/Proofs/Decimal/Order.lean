import LineCalc.Decimal.Binary
import Mathlib.Data.Prod.Lex

/-!
# The order of the doubles

The doubles that are numbers stand in an order: by their signs, and then by their exponents and by
their mantissas. What is no number comes neither before nor after anything. So the order is transitive
without exceptions. That is all it takes for the least and the greatest of a list: going through the
list and holding what comes before what was held, nothing comes before what is held in the end.

Results:
1. `lt_iff_standing`: a double is less than another one if it stands before that.
2. `lt_trans_double`, `lt_irrefl_double`: the order of the doubles.
3. `firstOf_foldl`: what is held at the end of a list.
-/

namespace LineCalc.Decimal

open Float.Model (UnpackedFloat)
open Float.Model.UnpackedFloat

section

variable {x y z : Float} {u v : UnpackedFloat} {a b : Int ×ₗ Int ×ₗ Int} {m n : Nat} {e f : Int}

/-! ## Standings -/

/-- Where a double stands among the doubles, if it is a number. -/
def standing? : UnpackedFloat → Option (Int ×ₗ Int ×ₗ Int)
  | .notANumber => none
  | .infinity s => some (toLex (s.apply 2, toLex (0, 0)))
  | .finite s m e _ => some (toLex (s.apply 1, toLex (s.apply e, s.apply m)))
  | .zero _ => some (toLex (0, toLex (0, 0)))

theorem before_iff {i j k i' j' k' : Int} :
    toLex (i, toLex (j, k)) < toLex (i', toLex (j', k')) ↔
      i < i' ∨ i = i' ∧ (j < j' ∨ j = j' ∧ k < k') := by
  rw [Prod.Lex.toLex_lt_toLex, Prod.Lex.toLex_lt_toLex]

theorem before_of_ne {i j k i' j' k' : Int} (apart : i ≠ i') :
    toLex (i, toLex (j, k)) < toLex (i', toLex (j', k')) ↔ i < i' := by
  rw [before_iff, or_iff_left fun same => apart same.1]

theorem lt_of_parts_iff (s t : Sign) (pos : 0 < m) (pos' : 0 < n) :
    (finite s m e pos).lt (finite t n f pos') = true ↔
      s.apply 1 < t.apply 1 ∨ s.apply 1 = t.apply 1 ∧
        (s.apply e < t.apply f ∨ s.apply e = t.apply f ∧ s.apply m < t.apply n) := by
  rw [UnpackedFloat.lt, beq_iff_eq]
  cases s with
  | negative => cases t with
    | negative =>
      show some ((compare e f).then (compare m n)).swap = some .lt ↔ _
      rw [Option.some_inj, Ordering.swap_eq_lt, Ordering.then_eq_gt, compare_gt_iff_gt,
        compare_eq_iff_eq, compare_gt_iff_gt]
      simp only [Sign.apply, lt_irrefl, false_or, true_and]
      omega
    | positive => exact iff_of_true rfl (.inl (by decide))
  | positive => cases t with
    | negative => exact iff_of_false (fun before => by cases before) (by simp [Sign.apply])
    | positive =>
      show some ((compare e f).then (compare m n)) = some .lt ↔ _
      rw [Option.some_inj, Ordering.then_eq_lt, compare_lt_iff_lt, compare_eq_iff_eq,
        compare_lt_iff_lt]
      simp only [Sign.apply, lt_irrefl, false_or, true_and]
      omega

/-- Of two doubles that are numbers the one that stands before the other is the lesser one. -/
theorem lt_iff_standing (first : standing? u = some a) (second : standing? v = some b) :
    u.lt v = true ↔ a < b := by
  cases u <;> cases v <;> cases first <;> cases second
  case finite.finite => rw [before_iff]; exact lt_of_parts_iff ..
  case zero.zero => exact iff_of_false Bool.false_ne_true (lt_irrefl _)
  -- In the other cases the signs decide, or that only one of the two is infinite.
  case infinity.infinity s t => rw [before_iff]; cases s <;> cases t <;> decide
  case infinity.zero s _ | finite.zero s _ _ _ _ =>
    rw [before_of_ne (by cases s <;> decide)]
    cases s with
    | negative => exact iff_of_true rfl (by decide)
    | positive => exact iff_of_false Bool.false_ne_true (by decide)
  case zero.infinity _ t | zero.finite _ t _ _ _ =>
    rw [before_of_ne (by cases t <;> decide)]
    cases t with
    | negative => exact iff_of_false Bool.false_ne_true (by decide)
    | positive => exact iff_of_true rfl (by decide)
  case infinity.finite s t _ _ _ =>
    rw [before_of_ne (by cases s <;> cases t <;> decide)]
    cases s with
    | negative => exact iff_of_true rfl (by cases t <;> decide)
    | positive => exact iff_of_false Bool.false_ne_true (by cases t <;> decide)
  case finite.infinity s _ _ _ t =>
    rw [before_of_ne (by cases s <;> cases t <;> decide)]
    cases t with
    | negative => exact iff_of_false Bool.false_ne_true (by cases s <;> decide)
    | positive => exact iff_of_true rfl (by cases s <;> decide)

theorem standing_of_lt (less : u.lt v = true) :
    ∃ a b, standing? u = some a ∧ standing? v = some b ∧ a < b := by
  have numbers : ∃ a b, standing? u = some a ∧ standing? v = some b := by
    cases u with
    | notANumber => cases less
    | infinity | zero | finite => cases v with
      | notANumber => cases less
      | infinity | zero | finite => exact ⟨_, _, rfl, rfl⟩
  obtain ⟨a, b, first, second⟩ := numbers
  exact ⟨a, b, first, second, (lt_iff_standing first second).mp less⟩

/-! ## The order -/

theorem lt_unpacked : x < y ↔ x.toModel.unpack.lt y.toModel.unpack = true := decide_eq_true_iff

theorem lt_trans_double (first : x < y) (second : y < z) : x < z := by
  rw [lt_unpacked] at first second ⊢
  obtain ⟨a, b, left, middle, before⟩ := standing_of_lt first
  obtain ⟨b', c, middle', right, before'⟩ := standing_of_lt second
  obtain rfl : b = b' := Option.some.inj (middle.symm.trans middle')
  exact (lt_iff_standing left right).mpr (before.trans before')

theorem lt_irrefl_double (x : Float) : ¬x < x := by
  intro less
  obtain ⟨a, b, left, right, before⟩ := standing_of_lt (lt_unpacked.mp less)
  obtain rfl : a = b := Option.some.inj (left.symm.trans right)
  exact lt_irrefl a before

end

/-! ## The first of a list -/

section

variable {α : Type} {before : α → α → Prop} {x m : α} {xs : List α}

/-- One of a list that none of it comes before. -/
structure FirstOf (before : α → α → Prop) (xs : List α) (m : α) : Prop where
  member : m ∈ xs
  first : ∀ x ∈ xs, ¬before x m

/-- Going through a list, what comes before what is held is held instead. In the end, nothing comes
before what is held. -/
theorem firstOf_foldl [DecidableRel before] (irrefl : ∀ x, ¬before x x)
    (trans : ∀ x y z, before x y → before y z → before x z) (x : α) (xs : List α) :
    FirstOf before (x :: xs) (xs.foldl (fun m y => if before y m then y else m) x) := by
  -- What is held later is the same or comes before what is held now.
  suffices h : ∀ m, xs.foldl (fun m y => if before y m then y else m) x = m →
      (m = x ∨ before m x) ∧ FirstOf before (x :: xs) m from (h _ rfl).2
  induction xs generalizing x with
  | nil =>
    rintro _ rfl
    refine ⟨.inl rfl, List.mem_singleton.mpr rfl, fun y mem => ?_⟩
    rw [List.mem_singleton.mp mem]
    exact irrefl x
  | cons y ys ih =>
    intro m held
    rw [List.foldl_cons] at held
    by_cases next : before y x
    · rw [if_pos next] at held
      obtain ⟨later, member, first⟩ := ih y m held
      have later : before m x := by
        rcases later with rfl | later
        · exact next
        · exact trans _ _ _ later next
      refine ⟨.inr later, List.mem_cons_of_mem x member, List.forall_mem_cons.mpr ⟨?_, first⟩⟩
      exact fun back => irrefl m (trans _ _ _ later back)
    · rw [if_neg next] at held
      obtain ⟨later, member, first⟩ := ih x m held
      obtain ⟨first, rest⟩ := List.forall_mem_cons.mp first
      refine ⟨later, ?_, List.forall_mem_cons.mpr ⟨first, List.forall_mem_cons.mpr ⟨?_, rest⟩⟩⟩
      · rcases List.mem_cons.mp member with rfl | member
        · exact List.mem_cons_self
        · exact List.mem_cons_of_mem x (List.mem_cons_of_mem y member)
      · intro back
        rcases later with rfl | later
        · exact next back
        · exact next (trans _ _ _ back later)

end

end LineCalc.Decimal
