import LineCalc.Proofs.Decimal.Sum

/-!
# Quotients by counts

A quotient of doubles is rounded once, like a sum. A count is a double that is at least one, so a
finite double divided by a count stays finite, and an infinite one does not become so.

Results:
1. `rounds_div`: the quotient by a positive double is rounded once.
2. `isFinite_div_count`: a quotient by a count is finite exactly if what is divided is.
-/

namespace LineCalc.Decimal

open Float.Model (UnpackedFloat Format totalExponent)
open Float.Model.UnpackedFloat

variable {x y : Float} {n : Nat}

/-! ## Quotients -/

theorem div_eq (x y : Float) : x / y =
    Float.ofModel (.pack (x.toModel.unpack.div .binary64 y.toModel.unpack)) := rfl

theorem unpack_of_pos (finite : x.isFinite = true) (pos : 0 < exactValue x) :
    ∃ m e pos', x.toModel.unpack = .finite .positive m e pos' ∧ exactValue x = m * 2 ^ e := by
  obtain ⟨m, e, canonical, -, parts, value⟩ := parts_of_pos finite pos
  obtain ⟨pos', unpacked⟩ := unpack_of_binary? parts rfl (Nat.ne_of_gt canonical.pos)
  exact ⟨m, e, pos', unpacked, value⟩

theorem unpack_of_zero (finite : x.isFinite = true) (zero : exactValue x = 0) :
    ∃ s, x.toModel.unpack = .zero s := by
  rw [isFinite_eq] at finite
  match unpacked : x.toModel.unpack with
  | .notANumber | .infinity _ =>
    rw [unpacked] at finite
    cases finite
  | .zero s => exact ⟨s, rfl⟩
  | .finite s m e pos =>
    have positive : (0 : ℚ) < m * 2 ^ e := mul_pos (Nat.cast_pos.mpr pos) (by positivity)
    rw [exactValue_of_unpack unpacked] at zero
    cases s <;> linarith

theorem rounds_div_of_pos (finite : x.isFinite = true) (finite' : y.isFinite = true)
    (pos : 0 < exactValue x) (pos' : 0 < exactValue y) :
    Rounds (exactValue x / exactValue y) (x / y) := by
  obtain ⟨m, e, posM, unpacked, value⟩ := unpack_of_pos finite pos
  obtain ⟨n, f, posN, unpacked', value'⟩ := unpack_of_pos finite' pos'
  obtain ⟨k, quotient, enough⟩ := divCore_eq e f posM posN
  have same : ((m * 2 ^ k : Nat) / n : ℚ) * 2 ^ (e - f - k) = m * 2 ^ e / (n * 2 ^ f) := by
    rw [zpow_sub₀ two_ne_zero, zpow_sub₀ two_ne_zero, zpow_natCast]
    push_cast
    field_simp
  have rounds := rounds_positive posN enough
  rw [same, ← value, ← value'] at rounds
  rw [div_eq, unpacked, unpacked', div, quotient]
  exact rounds

/-- The quotient by a positive double is rounded once. -/
theorem rounds_div (finite : x.isFinite = true) (finite' : y.isFinite = true)
    (pos : 0 < exactValue y) : Rounds (exactValue x / exactValue y) (x / y) := by
  rcases lt_trichotomy (exactValue x) 0 with negative | zero | positive
  · have opposite : 0 < exactValue (-x) := by
      rw [exactValue_neg]
      linarith
    have rounds := (rounds_div_of_pos ((isFinite_neg x).trans finite) finite' opposite pos).neg
    rwa [exactValue_neg, neg_div, neg_neg, neg_div_double, neg_neg_double] at rounds
  · obtain ⟨s, unpacked⟩ := unpack_of_zero finite zero
    obtain ⟨n, f, posN, unpacked', -⟩ := unpack_of_pos finite' pos
    have same : x / y = x := by
      have parts := ofModel_pack_unpack x
      rw [unpacked] at parts
      rw [div_eq, unpacked, unpacked', div]
      cases s <;> exact parts
    have rounds := rounds_exactValue finite
    rw [zero] at rounds ⊢
    rwa [zero_div, same]
  · exact rounds_div_of_pos finite finite' positive pos

/-! ## Counts -/

/-- A count is rounded once to a double. -/
theorem rounds_count (n : Nat) : Rounds n n.toFloat := by
  have rounds := rounds_nearestFloat n 0
  rwa [zpow_zero, mul_one] at rounds

/-- A count is at least one, or too great for a double. -/
theorem one_le_count (pos : 0 < n) (finite : n.toFloat.isFinite = true) :
    1 ≤ exactValue n.toFloat := by
  have rounds := rounds_count n
  have nearest := rounds.nearest (rounds.isFinite_iff.mp finite)
  have one : exactValue 1 = 1 := by
    rw [exactValue_of_unpack unpack_one]
    norm_num
  have near := nearest.near 1 rfl
  have least : (1 : ℚ) ≤ n := by exact_mod_cast pos
  rw [one, abs_of_nonneg (sub_nonneg.mpr least)] at near
  linarith [le_abs_self ((n : ℚ) - exactValue n.toFloat)]

theorem not_isFinite_div {u : UnpackedFloat} (infinite : u.isFinite = false) (v : UnpackedFloat) :
    (u.div .binary64 v).isFinite = false := by
  cases u with
  | zero | finite => cases infinite
  | notANumber => cases v <;> rfl
  | infinity s => cases v <;> rfl

/-- What is not finite has no finite quotients. -/
theorem isFinite_of_div (finite : (x / y).isFinite = true) : x.isFinite = true := by
  by_contra infinite
  rw [isFinite_eq] at infinite
  have quotient := not_isFinite_div (Bool.eq_false_iff.mpr infinite) y.toModel.unpack
  rw [div_eq, isFinite_pack, quotient] at finite
  · cases finite
  · intro s m e pos eq
    rw [eq] at quotient
    cases quotient

/-- A quotient by infinity is zero. -/
theorem isFinite_div_infinity (finite : x.isFinite = true) : (x / (1 / 0)).isFinite = true := by
  have infinite : ((1 / 0 : Float)).toModel.unpack = .infinity .positive := rfl
  obtain ⟨s, quotient⟩ : ∃ s, x.toModel.unpack.div .binary64 (.infinity .positive) = .zero s := by
    rw [isFinite_eq] at finite
    cases first : x.toModel.unpack with
    | notANumber | infinity =>
      rw [first] at finite
      cases finite
    | zero s | finite s => exact ⟨s / .positive, rfl⟩
  rw [div_eq, infinite, quotient]
  cases s <;> rfl

/-- A quotient by a count is finite exactly if what is divided is. -/
theorem isFinite_div_count (pos : 0 < n) : (x / n.toFloat).isFinite = x.isFinite := by
  rw [Bool.eq_iff_iff]
  refine ⟨isFinite_of_div, fun finite => ?_⟩
  by_cases small : n.toFloat.isFinite = true
  · have least := one_le_count pos small
    have rounds := rounds_div finite small (zero_lt_one.trans_le least)
    rw [rounds.isFinite_iff, abs_div, abs_of_pos (zero_lt_one.trans_le least)]
    exact (div_le_self (abs_nonneg _) least).trans_lt (abs_exactValue_lt finite)
  · have rounds := rounds_count n
    have positive : (0 : ℚ) < n := Nat.cast_pos.mpr pos
    rw [rounds.isFinite_iff, not_lt] at small
    rw [rounds.beyond small, if_pos positive]
    exact isFinite_div_infinity finite

end LineCalc.Decimal
