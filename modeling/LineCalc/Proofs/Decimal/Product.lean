import Mathlib

/-!
# Products with one

A finite double is a mantissa of at most 53 bits and an exponent. Rounding leaves a number of that
form as it is, so one times a double is the double itself.
-/

namespace LineCalc.Decimal

open Float.Model (UnpackedFloat Format totalExponent)
open Float.Model.UnpackedFloat

/-! ## Rounding -/

/-- What the mantissa and the exponent of a finite double are. -/
structure Canonical (m : Nat) (e : Int) : Prop where
  pos : 0 < m
  small : m < 2 ^ 53
  least : -1074 ≤ e
  form : m.log2 = 52 ∨ e = -1074

theorem shiftRight_exact (m k : Nat) :
    (⟨m * 2 ^ k, false, false⟩ : ExtendedMantissa) >>> k = ⟨m, false, false⟩ := by
  induction k generalizing m with
  | zero => simp [HShiftRight.hShiftRight, Nat.repeat]
  | succ k ih =>
    have twice : m * 2 ^ (k + 1) = m * 2 * 2 ^ k := by
      rw [Nat.pow_succ, Nat.mul_assoc, Nat.mul_comm 2]
    show ((⟨m * 2 ^ (k + 1), false, false⟩ : ExtendedMantissa) >>> k).shiftRightOne = _
    rw [twice, ih]
    simp [ExtendedMantissa.shiftRightOne]

theorem log2_mul_two_pow {m : Nat} (pos : 0 < m) (k : Nat) : (m * 2 ^ k).log2 = m.log2 + k := by
  induction k with
  | zero => simp
  | succ k ih =>
    have nonzero : m * 2 ^ k ≠ 0 := Nat.ne_of_gt (Nat.mul_pos pos (Nat.two_pow_pos k))
    rw [Nat.pow_succ, ← Nat.mul_assoc, Nat.mul_comm _ 2, Nat.log2_two_mul nonzero, ih,
      Nat.add_assoc]

/-- The place to round to is that of the last of 53 bits, unless it is below the least one. -/
theorem targetExponent_eq (m : Nat) (e : Int) :
    Format.binary64.targetExponent (totalExponent m e) = max (m.log2 + e - 52) (-1074) := by
  simp only [totalExponent, Format.targetExponent, Format.mantissaBits, Format.minExponent]
  omega

/-- A multiple by a power of two has the total exponent of the number itself, and so the same place
to round to. -/
theorem Canonical.targetExponent {m : Nat} {e : Int} (h : Canonical m e) (k : Nat) :
    Format.binary64.targetExponent (totalExponent (m * 2 ^ k) (e - k)) = e := by
  obtain ⟨pos, small, least, form⟩ := h
  have log2 : m.log2 < 53 := (Nat.log2_lt (Nat.ne_of_gt pos)).mpr small
  rw [targetExponent_eq, log2_mul_two_pow pos]
  omega

theorem Canonical.shift {m : Nat} {e : Int} (h : Canonical m e) (k : Nat) :
    shiftToTargetExponent .binary64 (m * 2 ^ k) (e - k) .exact = (⟨m, false, false⟩, e) := by
  have amount : (e - (e - k)).toNat = k := by omega
  simp only [shiftToTargetExponent, h.targetExponent k, shiftToExponent, amount,
    ExtendedMantissa.ofMantissaAndAccuracy, shiftRight_exact, Int.sub_add_cancel]

theorem Canonical.round {m : Nat} {e : Int} (h : Canonical m e) (s : Sign) (k : Nat) :
    roundWithAccuracy .binary64 s (m * 2 ^ k) (e - k) .exact = .finite s m e h.pos := by
  have again : shiftToTargetExponent .binary64 m e .exact = (⟨m, false, false⟩, e) := by
    simpa using h.shift 0
  have nonzero : m ≠ 0 := Nat.ne_of_gt h.pos
  simp [roundWithAccuracy, h.shift k, ExtendedMantissa.roundedMantissa, ExtendedMantissa.accuracy,
    Accuracy.roundToNearestEven, again, nonzero]

/-! ## Bits -/

theorem toNat_append_one (b : BitVec 52) : (1#1 ++ b).toNat = 2 ^ 52 + b.toNat := by
  rw [BitVec.toNat_append, ← Nat.shiftLeft_add_eq_or_of_lt b.isLt]
  rfl

theorem log2_normal {n : Nat} (h : n < 2 ^ 52) : (2 ^ 52 + n).log2 = 52 := by
  rw [Nat.log2_eq_iff (by omega)]
  omega

theorem canonical_of_unpack {b : BitVec Format.binary64.numBits} {s : Sign} {m : Nat} {e : Int}
    {pos : 0 < m} (h : unpack .binary64 b = .finite s m e pos) : Canonical m e := by
  have bias : (Format.binary64.exponentBias : Int) + (52 : Nat) = 1075 := by decide
  have mantissa : (unpackMantissa b).toNat < 2 ^ 52 := (unpackMantissa b).isLt
  simp only [unpack, bias] at h
  split at h
  · split at h <;> cases h
  · split at h
    · next zero =>
      split at h
      · cases h
      · rw [zero] at h
        cases h
        exact ⟨pos, by omega, by decide, .inr rfl⟩
    · next nonzero =>
      have positive : (unpackExponent b).toNat ≠ 0 := fun eq =>
        nonzero (BitVec.eq_of_toNat_eq eq)
      have full := toNat_append_one (unpackMantissa b)
      cases h
      refine ⟨pos, ?_, by omega, .inl ?_⟩
      · exact full ▸ (by omega)
      · exact full ▸ log2_normal mantissa

/-! ## Products -/

theorem unpack_one :
    (1 : Float).toModel.unpack = .finite .positive (2 ^ 52) (-52) (Nat.two_pow_pos 52) := by
  have bits : (1 : Float).toModel.toBits = 0x3FF0000000000000 := rfl
  rw [Float.Model.unpack, bits]
  rfl

theorem positive_mul (s : Sign) : Sign.positive * s = s := by
  cases s <;> rfl

theorem mul_unpack_one (x : Float) :
    (1 : Float).toModel.unpack.mul .binary64 x.toModel.unpack = x.toModel.unpack := by
  rw [unpack_one]
  match h : x.toModel.unpack with
  | .notANumber => rfl
  | .infinity s => rw [mul, positive_mul]
  | .zero s => rw [mul, positive_mul]
  | .finite s m e pos =>
    -- The mantissa of one is a power of two, which rounding shifts out again.
    have round := (canonical_of_unpack h).round s 52
    rw [mul, positive_mul, Nat.mul_comm, Int.add_comm]
    exact round

/-- One times a double is the double. -/
theorem one_mul_double (x : Float) : 1 * x = x := by
  show Float.ofModel (.pack ((1 : Float).toModel.unpack.mul .binary64 x.toModel.unpack)) = x
  rw [mul_unpack_one]
  exact Float.ofBits_toBits x

end LineCalc.Decimal
