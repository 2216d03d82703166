import LineCalc.Proofs.Decimal.Nearest

/-!
# Doubles next to each other

Between two doubles with even mantissas there is another double, since of two doubles that are next
to each other one has an odd mantissa. So no two doubles can both be the nearest to a number, and what
a number is rounded to is determined, but for the sign of a zero.

Of two positive doubles with different exponents the one with the greater exponent is the greater
one, since its mantissa has all its bits unless the exponent is the least there is. So doubles are
compared part by part as their values are.

Results:
1. `exists_between`: a double between two doubles with even mantissas.
2. `compare_exactValue`: finite doubles compare as their values do.
3. `Rounds.unique`: what a number is rounded to.
-/

namespace LineCalc.Decimal

open Float.Model (UnpackedFloat)
open Float.Model.UnpackedFloat

variable {m n : Nat} {e t : Int} {x y : Float} {q : ℚ}

/-! ## Mantissas and exponents -/

/-- Of two positive doubles the one with the greater exponent is the greater one. -/
theorem Canonical.lt_of_exponent (h : Canonical m e) (h' : Canonical n t) (lower : e < t) :
    (m * 2 ^ e : ℚ) < n * 2 ^ t := by
  have least := h.least
  have full : 2 ^ 52 ≤ n :=
    ((Nat.log2_eq_iff (Nat.ne_of_gt h'.pos)).mp (h'.form.resolve_right (by omega))).1
  have full : (2 ^ 52 : ℚ) ≤ n := by exact_mod_cast full
  have short : (m : ℚ) < 2 ^ 53 := by exact_mod_cast h.small
  have unit : (0 : ℚ) < 2 ^ e := by positivity
  have step : (2 : ℚ) ^ e * 2 ≤ 2 ^ t := by
    rw [← zpow_add_one₀ two_ne_zero]
    exact zpow_le_zpow_right₀ one_le_two lower
  calc (m * 2 ^ e : ℚ) < 2 ^ 53 * 2 ^ e := mul_lt_mul_of_pos_right short unit
    _ = 2 ^ 52 * (2 ^ e * 2) := by ring
    _ ≤ n * 2 ^ t := mul_le_mul full step (by positivity) (Nat.cast_nonneg n)

/-- Exponents decide between two positive doubles, and mantissas where the exponents are the same. -/
theorem Canonical.compare_eq (h : Canonical m e) (h' : Canonical n t) :
    compare (m * 2 ^ e : ℚ) (n * 2 ^ t) = (compare e t).then (compare m n) := by
  rcases lt_trichotomy e t with lower | rfl | higher
  · rw [compare_lt_iff_lt.mpr lower]
    exact compare_lt_iff_lt.mpr (h.lt_of_exponent h' lower)
  · have mono : StrictMono fun k : Nat => (k * 2 ^ e : ℚ) := fun k l less =>
      mul_lt_mul_of_pos_right (Nat.cast_lt.mpr less) (by positivity)
    rw [compare_eq_iff_eq.mpr (rfl : e = e), Ordering.eq_then, ← cmp_eq_compare, ← cmp_eq_compare]
    exact mono.cmp_map_eq m n
  · rw [compare_gt_iff_gt.mpr higher]
    exact compare_gt_iff_gt.mpr (h'.lt_of_exponent h higher)

/-- A positive double has one mantissa and one exponent. -/
theorem Canonical.unique (h : Canonical m e) (h' : Canonical n t)
    (value : (m * 2 ^ e : ℚ) = n * 2 ^ t) : m = n ∧ e = t := by
  have same := (h.compare_eq h').symm.trans (compare_eq_iff_eq.mpr value)
  rw [Ordering.then_eq_eq, compare_eq_iff_eq, compare_eq_iff_eq] at same
  exact same.symm

/-- Below a double with an even mantissa comes one with an odd one. -/
theorem exists_pred (h : Canonical m e) (even : m % 2 = 0) : ∃ n t, Canonical n t ∧ n % 2 = 1 ∧
    ((n + 1 : ℚ) * 2 ^ t = m * 2 ^ e) ∧ (t = -1074 ∨ 2 ^ 52 ≤ n) ∧ t ≤ e := by
  have pos := h.pos
  have small := h.small
  have least := h.least
  by_cases lowest : e = -1074
  · refine ⟨m - 1, e, ⟨by omega, by omega, least, .inr lowest⟩, by omega, ?_, .inl lowest, le_refl e⟩
    rw [Nat.cast_sub (by omega), Nat.cast_one, sub_add_cancel]
  have bits := (Nat.log2_eq_iff (Nat.ne_of_gt pos)).mp (h.form.resolve_right lowest)
  by_cases power : m = 2 ^ 52
  · have log2 : (2 ^ 53 - 1).log2 = 52 := (Nat.log2_eq_iff (by decide)).mpr (by decide)
    refine ⟨2 ^ 53 - 1, e - 1, ⟨by decide, by decide, by omega, .inl log2⟩, by decide, ?_,
      .inr (by decide), by omega⟩
    rw [power, zpow_sub₀ two_ne_zero]
    norm_num
    ring
  · have log2 : (m - 1).log2 = 52 := (Nat.log2_eq_iff (by omega)).mpr ⟨by omega, by omega⟩
    refine ⟨m - 1, e, ⟨by omega, by omega, least, .inl log2⟩, by omega, ?_, .inr (by omega),
      le_refl e⟩
    rw [Nat.cast_sub (by omega), Nat.cast_one, sub_add_cancel]

theorem parts_of_pos (finite : x.isFinite = true) (pos : 0 < exactValue x) :
    ∃ m e, Canonical m e ∧ e ≤ greatestExponent ∧ binary? x = some ⟨false, m, e⟩ ∧
      exactValue x = m * 2 ^ e := by
  rw [← binary?_isSome] at finite
  obtain ⟨⟨negative, m, e⟩, exact⟩ := Option.isSome_iff_exists.mp finite
  have value := exactValue_of_binary? exact
  have nonneg : (0 : ℚ) ≤ m * 2 ^ e := by positivity
  cases negative with
  | true =>
    rw [value, Binary.value, if_pos rfl] at pos
    linarith
  | false =>
    rw [Binary.value, if_neg Bool.false_ne_true] at value
    rcases canonical_of_binary? exact with ⟨zero, -⟩ | ⟨canonical, most⟩
    · have zero : m = 0 := zero
      rw [value, zero, Nat.cast_zero, zero_mul] at pos
      exact absurd pos (lt_irrefl 0)
    · exact ⟨m, e, canonical, most, exact, value⟩

/-! ## Between two doubles -/

theorem exists_between_of_nonneg (finite : x.isFinite = true) (finite' : y.isFinite = true)
    (even : HasEvenMantissa x) (even' : HasEvenMantissa y) (nonneg : 0 ≤ exactValue x)
    (less : exactValue x < exactValue y) :
    ∃ w : Float, w.isFinite = true ∧ exactValue x < exactValue w ∧ exactValue w < exactValue y := by
  obtain ⟨m, e, canonical, most, parts, value⟩ := parts_of_pos finite' (nonneg.trans_lt less)
  obtain ⟨n, t, pred, odd, next, low, lower⟩ := exists_pred canonical (even' _ parts)
  have unit : (0 : ℚ) < 2 ^ t := by positivity
  have most : t ≤ greatestExponent := lower.trans most
  have exact := binary?_pack pred most
  generalize Float.ofModel (.pack (.finite .positive n t pred.pos)) = w at exact
  have finiteW : w.isFinite = true := by
    rw [← binary?_isSome, exact]
    rfl
  have valueW : exactValue w = n * 2 ^ t := by
    rw [exactValue_of_binary? exact, Binary.value, if_neg Bool.false_ne_true]
  rw [value, ← next] at less
  refine ⟨w, finiteW, lt_of_le_of_ne ?_ fun same => ?_, ?_⟩
  · rw [valueW]
    rcases multiple_or_less finite t with ⟨j, multiple⟩ | ⟨above, small⟩
    · rw [multiple, mul_lt_mul_iff_left₀ unit] at less
      have less : j < n + 1 := by exact_mod_cast less
      have most : j ≤ n := by omega
      rw [multiple]
      exact mul_le_mul_of_nonneg_right (by exact_mod_cast most) unit.le
    · have full : (2 : ℚ) ^ 52 ≤ n := by exact_mod_cast low.resolve_left (by omega)
      exact small.le.trans (mul_le_mul_of_nonneg_right full unit.le)
  · -- The double below is no other one, as its mantissa is odd.
    have pos : 0 < exactValue x := by
      rw [same, valueW]
      exact mul_pos (Nat.cast_pos.mpr pred.pos) unit
    obtain ⟨i, s, other, -, parts', value'⟩ := parts_of_pos finite pos
    rw [same, valueW] at value'
    obtain ⟨rfl, rfl⟩ := other.unique pred value'.symm
    have even : i % 2 = 0 := even _ parts'
    omega
  · rw [valueW, value, ← next]
    linarith

/-- Between two doubles with even mantissas there is another double. -/
theorem exists_between (finite : x.isFinite = true) (finite' : y.isFinite = true)
    (even : HasEvenMantissa x) (even' : HasEvenMantissa y) (less : exactValue x < exactValue y) :
    ∃ w : Float, w.isFinite = true ∧ exactValue x < exactValue w ∧ exactValue w < exactValue y := by
  rcases le_or_gt 0 (exactValue x) with nonneg | negative
  · exact exists_between_of_nonneg finite finite' even even' nonneg less
  rcases le_or_gt (exactValue y) 0 with nonpos | positive
  · have finite := (isFinite_neg x).trans finite
    have finite' := (isFinite_neg y).trans finite'
    obtain ⟨w, finiteW, above, below⟩ := exists_between_of_nonneg finite' finite even'.neg even.neg
      (by rw [exactValue_neg]; linarith) (by rw [exactValue_neg, exactValue_neg]; linarith)
    rw [exactValue_neg] at above below
    refine ⟨-w, (isFinite_neg w).trans finiteW, ?_, ?_⟩ <;> rw [exactValue_neg] <;> linarith
  · exact ⟨0, rfl, by rwa [exactValue_zero], by rwa [exactValue_zero]⟩

/-! ## What a number is rounded to -/

theorem Nearest.not_less (h : Nearest q x) (h' : Nearest q y) : ¬exactValue x < exactValue y := by
  intro less
  have tie : |q - exactValue x| = |q - exactValue y| :=
    le_antisymm (h.near y h'.finite) (h'.near x h.finite)
  -- The number is in the middle between both, and the double between them is nearer.
  have middle : q - exactValue x = exactValue y - q := by
    rcases abs_eq_abs.mp tie with same | opposite <;> linarith
  obtain ⟨w, finite, above, below⟩ := exists_between h.finite h'.finite
    (h.even y h'.finite less.ne' tie.symm) (h'.even x h.finite less.ne tie) less
  have nearer : |q - exactValue w| < |q - exactValue x| := by
    have nonneg : 0 ≤ q - exactValue x := by linarith
    rw [abs_of_nonneg nonneg, abs_lt]
    constructor <;> linarith
  exact absurd (h.near w finite) (not_le.mpr nearer)

/-- A number has one nearest double, but for the sign of a zero. -/
theorem Nearest.unique (h : Nearest q x) (h' : Nearest q y) : exactValue x = exactValue y :=
  le_antisymm (not_lt.mp (h'.not_less h)) (not_lt.mp (h.not_less h'))

/-! ## Doubles and their values -/

theorem exactValue_of_zero {s : Sign} (unpacked : x.toModel.unpack = .zero s) :
    exactValue x = 0 := by
  cases s <;> simp [exactValue, binary?, unpacked, Binary.fraction]

theorem exactValue_of_unpack {s : Sign} {pos : 0 < m}
    (unpacked : x.toModel.unpack = .finite s m e pos) : exactValue x = match s with
      | .positive => m * 2 ^ e
      | .negative => -(m * 2 ^ e) := by
  rw [exactValue_of_binary? (binary?_of_unpack unpacked)]
  cases s <;> rfl

/-- Finite doubles compare as their values do. -/
theorem compare_exactValue (finite : x.isFinite = true) (finite' : y.isFinite = true) :
    x.toModel.unpack.compare y.toModel.unpack = some (compare (exactValue x) (exactValue y)) := by
  rw [isFinite_eq] at finite finite'
  match first : x.toModel.unpack, second : y.toModel.unpack with
  | .notANumber, _ | .infinity _, _ =>
    rw [first] at finite
    cases finite
  | _, .notANumber | _, .infinity _ =>
    rw [second] at finite'
    cases finite'
  | .zero s, .zero t =>
    rw [exactValue_of_zero first, exactValue_of_zero second, compare_eq_iff_eq.mpr rfl]
    rfl
  | .zero s, .finite t n f pos =>
    have positive : (0 : ℚ) < n * 2 ^ f := mul_pos (Nat.cast_pos.mpr pos) (by positivity)
    rw [exactValue_of_zero first, exactValue_of_unpack second]
    cases t with
    | positive => exact congrArg some (compare_lt_iff_lt.mpr positive).symm
    | negative => exact congrArg some (compare_gt_iff_gt.mpr (neg_neg_of_pos positive)).symm
  | .finite s m e pos, .zero t =>
    have positive : (0 : ℚ) < m * 2 ^ e := mul_pos (Nat.cast_pos.mpr pos) (by positivity)
    rw [exactValue_of_unpack first, exactValue_of_zero second]
    cases s with
    | positive => exact congrArg some (compare_gt_iff_gt.mpr positive).symm
    | negative => exact congrArg some (compare_lt_iff_lt.mpr (neg_neg_of_pos positive)).symm
  | .finite s m e pos, .finite t n f pos' =>
    have positive : (0 : ℚ) < m * 2 ^ e := mul_pos (Nat.cast_pos.mpr pos) (by positivity)
    have positive' : (0 : ℚ) < n * 2 ^ f := mul_pos (Nat.cast_pos.mpr pos') (by positivity)
    have parts := (canonical_of_unpack first).compare_eq (canonical_of_unpack second)
    rw [exactValue_of_unpack first, exactValue_of_unpack second]
    cases s with
    | positive => cases t with
      | positive => exact congrArg some parts.symm
      | negative => exact congrArg some (compare_gt_iff_gt.mpr (by linarith)).symm
    | negative => cases t with
      | positive => exact congrArg some (compare_lt_iff_lt.mpr (by linarith)).symm
      | negative =>
        have turned : StrictAnti fun q : ℚ => -q := fun q r => neg_lt_neg
        rw [← cmp_eq_compare, turned.cmp_map_eq, ← cmp_swap, cmp_eq_compare, parts]
        rfl

/-- Finite doubles are equal exactly if their values are. -/
theorem beq_iff_exactValue (finite : x.isFinite = true) (finite' : y.isFinite = true) :
    (x == y) = true ↔ exactValue x = exactValue y := by
  show (x.toModel.unpack.compare y.toModel.unpack == some .eq) = true ↔ _
  rw [compare_exactValue finite finite', beq_iff_eq, Option.some_inj, compare_eq_iff_eq]

/-- What equals a finite double is finite. -/
theorem isFinite_of_beq (finite : x.isFinite = true) (same : (x == y) = true) :
    y.isFinite = true := by
  have same : x.toModel.unpack.beq y.toModel.unpack = true := same
  rw [isFinite_eq] at finite ⊢
  cases second : y.toModel.unpack with
  | zero | finite => rfl
  | notANumber =>
    rw [second] at same
    cases first : x.toModel.unpack <;> rw [first] at same <;> cases same
  | infinity t =>
    rw [second] at same
    cases first : x.toModel.unpack with
    | notANumber | infinity =>
      rw [first] at finite
      cases finite
    | zero s | finite s =>
      rw [first] at same
      cases s <;> cases t <;> cases same

/-- Equal finite doubles equal the same doubles. -/
theorem beq_congr_left {z : Float} (finite : x.isFinite = true) (same : (x == y) = true) :
    (x == z) = (y == z) := by
  have finite' := isFinite_of_beq finite same
  rw [Bool.eq_iff_iff]
  by_cases third : z.isFinite = true
  · rw [beq_iff_exactValue finite third, beq_iff_exactValue finite' third,
      (beq_iff_exactValue finite finite').mp same]
  · exact iff_of_false (fun equal => third (isFinite_of_beq finite equal))
      fun equal => third (isFinite_of_beq finite' equal)

/-- A number is rounded to one double, but for the sign of a zero. -/
theorem Rounds.unique (h : Rounds q x) (h' : Rounds q y) : (x == y) = true := by
  rcases lt_or_ge |q| integerLimit with less | beyond
  · have nearest := h.nearest less
    have nearest' := h'.nearest less
    exact (beq_iff_exactValue nearest.finite nearest'.finite).mpr (nearest.unique nearest')
  · rw [h.beyond beyond, h'.beyond beyond]
    split <;> rfl

end LineCalc.Decimal
