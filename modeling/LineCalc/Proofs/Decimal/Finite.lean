import LineCalc.Proofs.Decimal.Double
import LineCalc.Proofs.Decimal.Product

/-!
# Finite results

A number in the form of a double is finite unless its exponent is too great. Negation does not
change the exponent, and the integers next to a finite double are its own exact value or have fewer
than 53 bits, so both stay finite.

Results:
1. `isFinite_neg`: the opposite of a double is finite exactly if the double is.
2. `isFinite_floor`, `isFinite_ceil`: the integers next to a finite double are finite doubles.
3. `not_isNaN_sub`: what is left of a finite double is a number.
-/

namespace LineCalc.Decimal

open Float.Model (UnpackedFloat Format totalExponent)
open Float.Model.UnpackedFloat

/-! ## Exponents -/

/-- The greatest exponent of a finite double. -/
def greatestExponent : Int := 971

/-- All exponent bits are set only in what is not finite. -/
theorem isFinite_unpack {b : BitVec Format.binary64.numBits} :
    (unpack .binary64 b).isFinite = true ↔ unpackExponent b ≠ -1#_ := by
  unfold unpack
  simp only
  split
  · next special =>
    simp only [special, ne_eq, not_true_eq_false, iff_false]
    split <;> nofun
  · next usual =>
    simp only [usual, ne_eq, not_false_eq_true, iff_true]
    split
    · split <;> rfl
    · rfl

/-- A number is finite in the bits of a double if its exponent fits there. -/
theorem isFinite_pack_finite {s : Sign} {m : Nat} {e : Int} {pos : 0 < m}
    (fits : (e + Format.binary64.exponentBias + (52 : Nat)).toNat + 1 < 2 ^ 11) :
    (unpack .binary64 (pack .binary64 (.finite s m e pos))).isFinite = true := by
  refine isFinite_unpack.mpr ?_
  unfold pack
  simp only
  split
  · omega
  · split <;> rw [unpackExponent_packComponents]
    · intro eq
      have bits := congrArg BitVec.toNat eq
      rw [BitVec.toNat_ofNat, Nat.mod_eq_of_lt (by omega)] at bits
      simp at bits
      omega
    · decide

/-- A number whose exponent is not too great is as finite in the bits of a double as it is. -/
theorem isFinite_pack {u : UnpackedFloat}
    (fits : ∀ s m e pos, u = .finite s m e pos → e ≤ greatestExponent) :
    (Float.ofModel (.pack u)).isFinite = u.isFinite := by
  rw [isFinite_eq]
  show (unpack .binary64 (pack .binary64 u)).isFinite = u.isFinite
  cases u with
  | notANumber => rfl
  | infinity s => cases s <;> rfl
  | zero s => cases s <;> rfl
  | finite s m e pos =>
    have small : e ≤ 971 := fits s m e pos rfl
    have bias : (Format.binary64.exponentBias : Int) + (52 : Nat) = 1075 := by decide
    exact isFinite_pack_finite (by omega)

/-- A number whose exponent is too great is infinite in the bits of a double. -/
theorem pack_of_greater {s : Sign} {m : Nat} {e : Int} {pos : 0 < m} (great : greatestExponent < e) :
    pack .binary64 (.finite s m e pos) = packedInfinity .binary64 s := by
  have bias : (Format.binary64.exponentBias : Int) + (52 : Nat) = 1075 := by decide
  have great : 971 < e := great
  have enough : 2 ^ 11 ≤ (e + Format.binary64.exponentBias + (52 : Nat)).toNat + 1 := by omega
  unfold pack
  exact if_pos enough

/-- The exponent of a finite double is not too great. -/
theorem exponent_of_unpack {b : BitVec Format.binary64.numBits} {s : Sign} {m : Nat} {e : Int}
    {pos : 0 < m} (h : unpack .binary64 b = .finite s m e pos) : e ≤ greatestExponent := by
  have usual : unpackExponent b ≠ -1#_ := isFinite_unpack.mp (by rw [h]; rfl)
  have bias : (Format.binary64.exponentBias : Int) + (52 : Nat) = 1075 := by decide
  have bits : (unpackExponent b).toNat < 2 ^ 11 - 1 := by
    have last : (unpackExponent b).toNat ≠ (-1#11).toNat := fun eq =>
      usual (BitVec.eq_of_toNat_eq eq)
    have most : (-1#11).toNat = 2 ^ 11 - 1 := by decide
    have bound : (unpackExponent b).toNat < 2 ^ 11 := (unpackExponent b).isLt
    omega
  show e ≤ 971
  have few : (unpackExponent b).toNat ≤ 2046 := by omega
  simp only [unpack, bias] at h
  split at h
  · split at h <;> cases h
  · split at h
    · next zero =>
      split at h
      · cases h
      · rw [zero] at h
        cases h
        decide
    · cases h
      omega

/-! ## Negation -/

/-- The opposite of a double is finite exactly if the double is. -/
theorem isFinite_neg (x : Float) : (-x).isFinite = x.isFinite := by
  show (Float.ofModel (.pack x.toModel.unpack.neg)).isFinite = _
  rw [isFinite_pack, isFinite_eq]
  · cases x.toModel.unpack <;> rfl
  · intro s m e pos eq
    cases unpacked : x.toModel.unpack with
    | finite s' m' e' pos' =>
      rw [unpacked] at eq
      cases eq
      exact exponent_of_unpack unpacked
    | notANumber | infinity | zero =>
      rw [unpacked] at eq
      cases eq

/-! ## Integers -/

variable {m n k : Nat} {e : Int}

/-- An even multiple of the mantissa of a double is the same double at a greater exponent. -/
theorem Canonical.round_multiple (h : Canonical m e) (s : Sign) :
    UnpackedFloat.round .binary64 s (m * 2 ^ k) (e - k) = .finite s m e h.pos := by
  have amount : (e - k - e).toNat = 0 := by omega
  simp only [UnpackedFloat.round, h.targetExponent k, decreaseExponent, amount]
  simpa using h.round s k

theorem log2_filled (pos : 0 < n) (short : n < 2 ^ 53) : (n * 2 ^ (52 - n.log2)).log2 = 52 := by
  have bits : n.log2 < 53 := (Nat.log2_lt (Nat.ne_of_gt pos)).mpr short
  rw [log2_mul_two_pow pos]
  omega

/-- A number of at most 53 bits, filled up with zeros, is in the form of a double. -/
theorem canonical_of_short (pos : 0 < n) (short : n < 2 ^ 53) :
    Canonical (n * 2 ^ (52 - n.log2)) (-(52 - n.log2 : Nat)) := by
  have full := log2_filled pos short
  have pos := Nat.mul_pos pos (Nat.two_pow_pos (52 - n.log2))
  exact ⟨pos, (Nat.log2_lt (Nat.ne_of_gt pos)).mp (by omega), by omega, .inl full⟩

/-- A mantissa of few bits is filled up with zeros. -/
theorem Canonical.round_short (h : Canonical (n * 2 ^ k) (-k)) (s : Sign) :
    UnpackedFloat.round .binary64 s n 0 = .finite s (n * 2 ^ k) (-k) h.pos := by
  have pos : 0 < n := Nat.pos_of_ne_zero fun zero => by simpa [zero] using h.pos
  have target : Format.binary64.targetExponent (totalExponent n 0) = -k := by
    rw [← h.targetExponent 0]
    simp only [totalExponent, Nat.pow_zero, Nat.mul_one, log2_mul_two_pow pos]
    congr 1
    omega
  simp only [UnpackedFloat.round, target, decreaseExponent, Nat.shiftLeft_eq]
  simpa using h.round s 0

/-- The exact value of a finite double. -/
theorem canonical_of_binary? {x : Float} {b : Binary} (h : binary? x = some b) :
    b.mantissa = 0 ∧ b.exponent = 0 ∨
      Canonical b.mantissa b.exponent ∧ b.exponent ≤ greatestExponent := by
  unfold binary? at h
  split at h <;> cases h
  · next unpacked => exact .inr ⟨canonical_of_unpack unpacked, exponent_of_unpack unpacked⟩
  · next unpacked => exact .inr ⟨canonical_of_unpack unpacked, exponent_of_unpack unpacked⟩
  · exact .inl ⟨rfl, rfl⟩
  · exact .inl ⟨rfl, rfl⟩

/-- What is zero or rounds to a number whose exponent is not too great is finite as a double. -/
theorem isFinite_toFloat {b : Binary}
    (fits : b.mantissa ≠ 0 → ∀ s, ∃ m e pos, e ≤ greatestExponent ∧
      UnpackedFloat.round .binary64 s b.mantissa b.exponent = .finite s m e pos) :
    b.toFloat.isFinite = true := by
  unfold Binary.toFloat
  simp only
  split
  · rw [isFinite_pack]
    · rfl
    · intro s m e pos eq
      cases eq
  · next nonzero =>
    have nonzero : b.mantissa ≠ 0 := by simpa using nonzero
    obtain ⟨m, e, pos, small, rounds⟩ := fits nonzero (if b.negative then .negative else .positive)
    rw [rounds, isFinite_pack]
    · rfl
    · intro s' m' e' pos' eq
      cases eq
      exact small

/-- An integer of at most 53 bits is a double. -/
theorem isFinite_of_short {i : Int} (short : i.natAbs < 2 ^ 53) :
    (Binary.ofInt i 0).toFloat.isFinite = true := by
  refine isFinite_toFloat fun nonzero s => ?_
  have canonical := canonical_of_short (Nat.pos_of_ne_zero nonzero) short
  exact ⟨_, _, canonical.pos, by simp only [greatestExponent]; omega, canonical.round_short s⟩

/-- The exact value of a double that is a multiple of one is a double. -/
theorem isFinite_of_multiple {i : Int} (h : Canonical m k) (small : k ≤ greatestExponent)
    (eq : i.natAbs = m * 2 ^ k) : (Binary.ofInt i 0).toFloat.isFinite = true := by
  refine isFinite_toFloat fun _ s => ⟨m, k, h.pos, small, ?_⟩
  have rounds := h.round_multiple (k := k) s
  rwa [Int.sub_self, ← eq] at rounds

/-- The integers next to a finite double are finite doubles. -/
theorem isFinite_of_near {x : Float} {b : Binary} {i : Int} (h : binary? x = some b)
    (near : i.natAbs = b.wholePart ∨ b.isWhole = false ∧ i.natAbs = b.wholePart + 1) :
    (Binary.ofInt i 0).toFloat.isFinite = true := by
  rcases canonical_of_binary? h with ⟨zero, none⟩ | ⟨canonical, small⟩
  · refine isFinite_of_short ?_
    have whole : b.isWhole = true := by simp [Binary.isWhole, Binary.fraction, zero]
    have part : b.wholePart = 0 := by simp [Binary.wholePart, Binary.fraction, zero]
    simp only [whole, part] at near
    omega
  · rcases lt_or_ge b.exponent 0 with fine | large
    · have part : b.wholePart < 2 ^ 52 := by
        have half : 2 ≤ 2 ^ (-b.exponent).toNat := Nat.le_self_pow (by omega) 2
        have none : b.exponent.toNat = 0 := by omega
        simp only [Binary.wholePart, Binary.fraction, none]
        refine Nat.div_lt_of_lt_mul ?_
        have small := canonical.small
        calc b.mantissa * 2 ^ 0 < 2 * 2 ^ 52 := by omega
          _ ≤ 2 ^ (-b.exponent).toNat * 2 ^ 52 := Nat.mul_le_mul_right _ half
      exact isFinite_of_short (by omega)
    · -- The number is an integer itself.
      obtain ⟨k, eq⟩ := Int.eq_ofNat_of_zero_le large
      have whole : b.isWhole = true := by simp [Binary.isWhole, Binary.fraction, eq, Nat.mod_one]
      have part : b.wholePart = b.mantissa * 2 ^ k := by
        simp [Binary.wholePart, Binary.fraction, eq]
      rw [eq] at canonical small
      refine isFinite_of_multiple canonical small ?_
      simpa [whole, part] using near

theorem isFinite_floor {x : Float} {b : Binary} (h : binary? x = some b) :
    (Binary.ofInt b.floor 0).toFloat.isFinite = true := by
  refine isFinite_of_near h ?_
  unfold Binary.floor Binary.truncate
  cases b.negative <;> cases b.isWhole <;> simp
  omega

theorem isFinite_ceil {x : Float} {b : Binary} (h : binary? x = some b) :
    (Binary.ofInt b.ceil 0).toFloat.isFinite = true := by
  refine isFinite_of_near h ?_
  unfold Binary.ceil Binary.truncate
  cases b.negative <;> cases b.isWhole <;> simp
  omega

/-! ## Numbers -/

theorem not_isNaN_of_isFinite {u : UnpackedFloat} (finite : u.isFinite = true) :
    u.isNaN = false := by
  cases u with
  | notANumber => cases finite
  | infinity | zero | finite => rfl

/-- What is a number is one in the bits of a double, be it infinite there. -/
theorem not_isNaN_pack {u : UnpackedFloat} (number : u.isNaN = false) :
    (Float.ofModel (.pack u)).isNaN = false := by
  rw [isNaN_eq]
  show (unpack .binary64 (pack .binary64 u)).isNaN = false
  cases u with
  | notANumber => cases number
  | infinity s => cases s <;> rfl
  | zero s => cases s <;> rfl
  | finite s m e pos =>
    by_cases fits : (e + Format.binary64.exponentBias + (52 : Nat)).toNat + 1 < 2 ^ 11
    · exact not_isNaN_of_isFinite (isFinite_pack_finite fits)
    · have infinite : pack .binary64 (.finite s m e pos) = packedInfinity .binary64 s :=
        if_pos (Nat.le_of_not_lt fits)
      rw [infinite]
      cases s <;> rfl

theorem not_isNaN_round (s : Sign) (m : Nat) (e : Int) (accuracy : Accuracy) :
    (roundWithAccuracy .binary64 s m e accuracy).isNaN = false := by
  simp only [roundWithAccuracy]
  split <;> rfl

theorem not_isNaN_normalize (i e : Int) :
    (UnpackedFloat.normalize .binary64 i e .positive).isNaN = false := by
  unfold UnpackedFloat.normalize
  split
  · exact not_isNaN_round _ _ _ _
  · rfl
  · exact not_isNaN_round _ _ _ _

theorem not_isNaN_sub_unpacked {u v : UnpackedFloat} (finite : u.isFinite = true)
    (number : v.isNaN = false) : (u.sub .binary64 v).isNaN = false := by
  cases u with
  | notANumber | infinity => cases finite
  | zero s =>
    cases v with
    | notANumber => cases number
    | infinity | finite => rfl
    | zero s' => cases s <;> cases s' <;> rfl
  | finite s m e pos =>
    cases v with
    | notANumber => cases number
    | infinity | zero => rfl
    | finite s' m' e' pos' => exact not_isNaN_normalize _ _

/-- A number taken from a finite double leaves a number. -/
theorem not_isNaN_sub {x y : Float} (finite : x.isFinite = true) (number : y.isNaN = false) :
    (x - y).isNaN = false :=
  not_isNaN_pack (not_isNaN_sub_unpacked finite number)

end LineCalc.Decimal
