import LineCalc.Proofs.Decimal.Adjacent

/-!
# Sums of doubles

Sums and products of two doubles do not depend on the order of these. A sum of two is their exact sum,
rounded once, and so is the sum of a list, however long: the terms are added up exactly, and what is
rounded is the total. Only the expansion that goes along with the sum can leave the range of the
doubles on the way, also where the total would not, and then there is no sum.

Results:
1. `add_comm_double`, `mul_comm_double`: two doubles in either order.
2. `rounds_add`: the sum of two doubles is rounded once.
3. `exactSum_of_finite`: so is the sum of a list, unless its expansion overflows.
4. `isSome_expansion?_pair`: of two terms it overflows only if their sum is not finite.
-/

namespace LineCalc.Decimal

open Float.Model (UnpackedFloat Format)
open Float.Model.UnpackedFloat

variable {x y : Float} {xs : List Float} {m : Nat} {e : Int}

/-! ## The order of the operands -/

theorem mul_sign_comm (s t : Sign) : s * t = t * s := by
  cases s <;> cases t <;> rfl

theorem mul_unpacked_comm (u v : UnpackedFloat) : u.mul .binary64 v = v.mul .binary64 u := by
  cases u <;> cases v <;> simp only [mul, mul_sign_comm, Nat.mul_comm, Int.add_comm]

theorem add_unpacked_comm (u v : UnpackedFloat) : u.add .binary64 v = v.add .binary64 u := by
  cases u with
  | notANumber => cases v <;> rfl
  | infinity s => cases v with
    | infinity t => cases s <;> cases t <;> rfl
    | notANumber | zero | finite => rfl
  | zero s => cases v with
    | zero t => cases s <;> cases t <;> rfl
    | notANumber | infinity | finite => rfl
  | finite s m e pos => cases v with
    | notANumber | infinity | zero => rfl
    | finite t n f pos' => simp only [add, Int.min_comm e f, Int.add_comm]

theorem add_comm_double (x y : Float) : x + y = y + x := by
  show Float.ofModel (.pack (x.toModel.unpack.add .binary64 y.toModel.unpack)) =
    Float.ofModel (.pack (y.toModel.unpack.add .binary64 x.toModel.unpack))
  rw [add_unpacked_comm]

theorem mul_comm_double (x y : Float) : x * y = y * x := by
  show Float.ofModel (.pack (x.toModel.unpack.mul .binary64 y.toModel.unpack)) =
    Float.ofModel (.pack (y.toModel.unpack.mul .binary64 x.toModel.unpack))
  rw [mul_unpacked_comm]

/-! ## Two terms -/

/-- A multiple of a power of two is rounded like the exact number. -/
theorem normalize_eq_toFloat (n e : Int) :
    Float.ofModel (.pack (UnpackedFloat.normalize .binary64 n e .positive)) =
      (Binary.ofInt n e).toFloat := by
  unfold UnpackedFloat.normalize Binary.toFloat
  rcases lt_trichotomy n 0 with negative | rfl | positive
  · have mantissa : (-n).toNat = n.natAbs := by omega
    have nonzero : ¬n.natAbs = 0 := by omega
    simp [Int.compare_eq_lt.mpr negative, Binary.ofInt, negative, mantissa, nonzero]
  · rfl
  · have mantissa : n.toNat = n.natAbs := by omega
    have nonzero : ¬n.natAbs = 0 := by omega
    have nonneg : ¬n < 0 := by omega
    simp [Int.compare_eq_gt.mpr positive, Binary.ofInt, nonneg, mantissa, nonzero]

theorem apply_decreaseExponent (s : Sign) (m : Nat) (e t : Int) :
    s.apply (decreaseExponent m e t).1 = (Binary.mk (s == .negative) m e).atExponent t := by
  cases s <;> simp [Sign.apply, decreaseExponent, Binary.atExponent, twoTo, Nat.shiftLeft_eq]

/-- The sum of two doubles is rounded once. -/
theorem rounds_add (finite : x.isFinite = true) (finite' : y.isFinite = true) :
    Rounds (exactValue x + exactValue y) (x + y) := by
  have sum : x + y = Float.ofModel (.pack (x.toModel.unpack.add .binary64 y.toModel.unpack)) := rfl
  have self := rounds_exactValue finite
  have self' := rounds_exactValue finite'
  rw [isFinite_eq] at finite finite'
  match first : x.toModel.unpack, second : y.toModel.unpack with
  | .notANumber, _ | .infinity _, _ =>
    rw [first] at finite
    cases finite
  | _, .notANumber | _, .infinity _ =>
    rw [second] at finite'
    cases finite'
  | .zero s, .zero t =>
    -- The sum is one of both.
    rw [exactValue_of_zero first] at self ⊢
    rw [exactValue_of_zero second] at self' ⊢
    rw [add_zero, sum, first, second, add]
    rw [← ofModel_pack_unpack x, first] at self
    split
    · exact self
    · exact rounds_zero
  | .zero s, .finite .. =>
    have same : x + y = y := by
      have parts := ofModel_pack_unpack y
      rw [second] at parts
      rw [sum, first, second]
      exact parts
    rwa [exactValue_of_zero first, zero_add, same]
  | .finite .., .zero t =>
    have same : x + y = x := by
      have parts := ofModel_pack_unpack x
      rw [first] at parts
      rw [sum, first, second]
      exact parts
    rwa [exactValue_of_zero second, add_zero, same]
  | .finite s m e pos, .finite t n f pos' =>
    rw [exactValue_of_binary? (binary?_of_unpack first),
      exactValue_of_binary? (binary?_of_unpack second), ← value_add, sum, first, second, add]
    simp only [apply_decreaseExponent, normalize_eq_toFloat]
    exact rounds_toFloat _

/-! ## Lists -/

/-- The expansion of a list, unless it overflows on the way. -/
def expansion? (xs : List Float) : Option (List Float) := xs.foldlM (fun ys x => absorb x ys) []

/-- Finite terms are added to a running sum exactly, as long as its expansion does not overflow. -/
theorem foldlM_add (finite : ∀ x ∈ xs, x.isFinite = true) (s : RunningSum) :
    xs.foldlM (fun ys x => absorb x ys) s.expansion = none ∧
        xs.foldlM RunningSum.add s = .error .overflow ∨
      ∃ ys b, xs.foldlM (fun ys x => absorb x ys) s.expansion = some ys ∧
        xs.foldlM RunningSum.add s = .ok { s with expansion := ys, exact := b } ∧
        b.value = s.exact.value + (xs.map exactValue).sum := by
  induction xs generalizing s with
  | nil => exact .inr ⟨s.expansion, s.exact, rfl, rfl, by simp⟩
  | cons x xs ih =>
    obtain ⟨first, rest⟩ := List.forall_mem_cons.mp finite
    rw [← binary?_isSome] at first
    obtain ⟨a, exact⟩ := Option.isSome_iff_exists.mp first
    rw [List.foldlM_cons, List.foldlM_cons, RunningSum.add, exact]
    cases absorbed : absorb x s.expansion with
    | none => exact .inl ⟨rfl, rfl⟩
    | some zs =>
      rcases ih rest { s with expansion := zs, exact := s.exact.add a } with
        ⟨overflow, none⟩ | ⟨ys, b, found, sum, value⟩
      · exact .inl ⟨overflow, none⟩
      · refine .inr ⟨ys, b, found, sum, ?_⟩
        rw [value, value_add, List.map_cons, List.sum_cons, exactValue_of_binary? exact, add_assoc]

/-- The sum of a list of finite doubles is rounded once, unless its expansion overflows. -/
theorem exactSum_of_finite (finite : ∀ x ∈ xs, x.isFinite = true) :
    expansion? xs = none ∧ exactSum xs = .error .overflow ∨
      (expansion? xs).isSome = true ∧
        ∃ x, exactSum xs = .ok x ∧ Rounds (xs.map exactValue).sum x := by
  rcases foldlM_add finite {} with ⟨overflow, none⟩ | ⟨ys, b, found, sum, value⟩
  · refine .inl ⟨overflow, ?_⟩
    rw [exactSum, none]
    rfl
  · have nothing : (RunningSum.exact {}).value = 0 := by simp [Binary.value]
    rw [nothing, zero_add] at value
    refine .inr ⟨Option.isSome_iff_exists.mpr ⟨ys, found⟩, b.toFloat, ?_, value ▸ rounds_toFloat b⟩
    have usual : ((0 : Float) == 0) = true := rfl
    rw [exactSum, sum]
    exact if_pos usual

theorem isSome_absorb_single : (absorb y [x]).isSome = (x + y).isFinite := by
  -- The greater one comes first, but they have one sum.
  have sum : (if y.abs < x.abs then (x, y) else (y, x)).1 +
      (if y.abs < x.abs then (x, y) else (y, x)).2 = x + y := by
    split
    · rfl
    · exact add_comm_double y x
  simp only [absorb, sum]
  split
  · next finite => simp [finite]
  · next infinite => simp [infinite]

/-- The expansion of two terms goes through if their sum is finite. -/
theorem isSome_expansion?_pair (finite : x.isFinite = true) (finite' : y.isFinite = true) :
    (expansion? [x, y]).isSome = (x + y).isFinite := by
  have pair : expansion? [x, y] = (absorb x []).bind (absorb y) := by
    simp only [expansion?, List.foldlM_cons, List.foldlM_nil, bind_pure]
    rfl
  rw [pair, absorb]
  by_cases zero : (x == 0) = true
  · have value : exactValue x = 0 :=
      ((beq_iff_exactValue finite rfl).mp zero).trans exactValue_zero
    have sum := rounds_add finite finite'
    rw [value, zero_add] at sum
    rw [if_pos zero, sum.isFinite_iff.mpr (abs_exactValue_lt finite')]
    rfl
  · rw [if_neg zero]
    exact isSome_absorb_single

end LineCalc.Decimal
