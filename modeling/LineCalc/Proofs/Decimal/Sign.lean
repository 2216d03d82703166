import LineCalc.Decimal.Remainder
import LineCalc.Proofs.Decimal.Finite

/-!
# Signs of products and quotients

A double has its sign in a bit of its own, and what a product, a quotient or a remainder is rounded
to depends on the magnitudes alone. So the sign of the first operand is that of the result, for
zeros and infinities as well.

Results: `neg_mul_double`, `mul_neg_double`, `neg_div_double` and `remainder?_neg`.
-/

namespace LineCalc.Decimal

open Float.Model (UnpackedFloat Format)
open Float.Model.UnpackedFloat

/-! ## Bits -/

theorem sign_packComponents {s : Sign} {e : BitVec 11} {m : BitVec 52} :
    Sign.ofBitVec (unpackSign (packComponents .binary64 s e m)) = s := by
  simp only [unpackSign, packComponents, BitVec.extractLsb]
  rw [BitVec.extractLsb'_append_eq_of_le (by omega), BitVec.extractLsb'_append_eq_of_le (by omega)]
  cases s <;> rfl

theorem unpack_packComponents_neg (s : Sign) (e : BitVec 11) (m : BitVec 52) :
    unpack .binary64 (packComponents .binary64 (-s) e m) =
      (unpack .binary64 (packComponents .binary64 s e m)).neg := by
  simp only [unpack, sign_packComponents, unpackMantissa_packComponents,
    unpackExponent_packComponents]
  split
  · split <;> rfl
  · split
    · split <;> rfl
    · rfl

/-- The opposite of a number has the same bits but for the sign. -/
theorem unpack_pack_neg (u : UnpackedFloat) : unpack .binary64 (pack .binary64 u.neg) =
    (unpack .binary64 (pack .binary64 u)).neg := by
  cases u with
  | notANumber => rfl
  | infinity s =>
    simp only [neg, pack, packedInfinity]
    exact unpack_packComponents_neg s _ _
  | zero s =>
    simp only [neg, pack, packedZero]
    exact unpack_packComponents_neg s 0#11 0#52
  | finite s m e pos =>
    simp only [neg, pack, packedInfinity]
    split
    · exact unpack_packComponents_neg s _ _
    · split <;> exact unpack_packComponents_neg s _ _

theorem ofModel_pack_unpack (x : Float) : Float.ofModel (.pack x.toModel.unpack) = x :=
  Float.ofBits_toBits x

theorem unpack_ofModel_pack (u : UnpackedFloat) : (Float.ofModel (.pack u)).toModel.unpack =
    unpack .binary64 (pack .binary64 u) := rfl

theorem neg_eq (x : Float) : -x = Float.ofModel (.pack x.toModel.unpack.neg) := rfl

theorem unpack_neg (x : Float) : (-x).toModel.unpack = x.toModel.unpack.neg := by
  rw [neg_eq, unpack_ofModel_pack, unpack_pack_neg, ← unpack_ofModel_pack, ofModel_pack_unpack]

/-- The opposite of the opposite is the double, also if it is no number. -/
theorem neg_neg_double (x : Float) : -(-x) = x := by
  have twice : x.toModel.unpack.neg.neg = x.toModel.unpack := by
    cases x.toModel.unpack with
    | notANumber => rfl
    | infinity s | zero s | finite s => cases s <;> rfl
  rw [neg_eq, unpack_neg, twice, ofModel_pack_unpack]

theorem neg_ofModel_pack (u : UnpackedFloat) :
    -(Float.ofModel (.pack u)) = Float.ofModel (.pack u.neg) := by
  rw [neg_eq, unpack_ofModel_pack, ← unpack_pack_neg, ← unpack_ofModel_pack, ofModel_pack_unpack]

/-! ## Products and quotients -/

theorem neg_mul_sign (s t : Sign) : -s * t = -(s * t) := by
  cases s <;> cases t <;> rfl

theorem mul_neg_sign (s t : Sign) : s * -t = -(s * t) := by
  cases s <;> cases t <;> rfl

theorem neg_div_sign (s t : Sign) : -s / t = -(s / t) := by
  cases s <;> cases t <;> rfl

theorem roundWithAccuracy_neg (s : Sign) (m : Nat) (e : Int) (accuracy : Accuracy) :
    roundWithAccuracy .binary64 (-s) m e accuracy =
      (roundWithAccuracy .binary64 s m e accuracy).neg := by
  simp only [roundWithAccuracy]
  split <;> rfl

theorem round_neg (s : Sign) (m : Nat) (e : Int) : UnpackedFloat.round .binary64 (-s) m e =
    (UnpackedFloat.round .binary64 s m e).neg :=
  roundWithAccuracy_neg s _ _ .exact

theorem neg_mul_unpacked (u v : UnpackedFloat) :
    u.neg.mul .binary64 v = (u.mul .binary64 v).neg := by
  cases u <;> cases v <;> simp only [neg, mul, neg_mul_sign, roundWithAccuracy_neg]

theorem mul_neg_unpacked (u v : UnpackedFloat) :
    u.mul .binary64 v.neg = (u.mul .binary64 v).neg := by
  cases u <;> cases v <;> simp only [neg, mul, mul_neg_sign, roundWithAccuracy_neg]

theorem neg_div_unpacked (u v : UnpackedFloat) :
    u.neg.div .binary64 v = (u.div .binary64 v).neg := by
  cases u <;> cases v <;> simp only [neg, div, neg_div_sign, roundWithAccuracy_neg]

/-- The product with the opposite is the opposite of the product. -/
theorem neg_mul_double (x y : Float) : -x * y = -(x * y) := by
  show Float.ofModel (.pack ((-x).toModel.unpack.mul .binary64 y.toModel.unpack)) = _
  rw [unpack_neg, neg_mul_unpacked, ← neg_ofModel_pack]
  rfl

theorem mul_neg_double (x y : Float) : x * -y = -(x * y) := by
  show Float.ofModel (.pack (x.toModel.unpack.mul .binary64 (-y).toModel.unpack)) = _
  rw [unpack_neg, mul_neg_unpacked, ← neg_ofModel_pack]
  rfl

/-- The quotient of the opposite is the opposite of the quotient. -/
theorem neg_div_double (x y : Float) : -x / y = -(x / y) := by
  show Float.ofModel (.pack ((-x).toModel.unpack.div .binary64 y.toModel.unpack)) = _
  rw [unpack_neg, neg_div_unpacked, ← neg_ofModel_pack]
  rfl

/-! ## Remainders -/

theorem isNaN_neg (x : Float) : (-x).isNaN = x.isNaN := by
  rw [isNaN_eq, isNaN_eq, unpack_neg]
  cases x.toModel.unpack <;> rfl

/-- The number of the opposite sign. -/
def Binary.neg (b : Binary) : Binary := { b with negative := !b.negative }

theorem binary?_neg (x : Float) : binary? (-x) = (binary? x).map Binary.neg := by
  rw [binary?, binary?, unpack_neg]
  cases x.toModel.unpack with
  | notANumber | infinity => rfl
  | zero s | finite s => cases s <;> rfl

theorem toFloat_neg (b : Binary) : b.neg.toFloat = -b.toFloat := by
  have sign : (if b.neg.negative then Sign.negative else .positive) =
      -(if b.negative then Sign.negative else .positive) := by
    rw [Binary.neg]
    cases b.negative <;> rfl
  simp only [Binary.toFloat, sign]
  show (if b.mantissa == 0 then _ else _) = _
  split
  · rw [neg_ofModel_pack, neg]
  · rw [neg_ofModel_pack, ← round_neg]
    rfl

theorem add_of_isNaN {x y : Float} (nan : (x.isNaN || y.isNaN) = true) : -x + y = -(x + y) := by
  show Float.ofModel (.pack ((-x).toModel.unpack.add .binary64 y.toModel.unpack)) =
    -(Float.ofModel (.pack (x.toModel.unpack.add .binary64 y.toModel.unpack)))
  rw [isNaN_eq, isNaN_eq] at nan
  rw [unpack_neg, neg_ofModel_pack]
  revert nan
  cases x.toModel.unpack with
  | notANumber => exact fun _ => rfl
  | infinity | zero | finite =>
    cases y.toModel.unpack with
    | notANumber => exact fun _ => rfl
    | infinity | zero | finite => exact fun nan => nomatch nan

/-- The remainder of the opposite is the opposite of the remainder. -/
theorem remainder?_neg (x y : Float) : remainder? (-x) y = (remainder? x y).map (-·) := by
  rw [remainder?, remainder?, isNaN_neg, binary?_neg]
  split
  · next nan => rw [add_of_isNaN nan, Option.map_some]
  · cases binary? x with
    | none => rfl
    | some a =>
      cases binary? y with
      | none => rfl
      | some b =>
        have opposite : a.neg.mod b = (a.mod b).neg := rfl
        simp only [Option.map_some]
        split
        · rfl
        · rw [opposite, toFloat_neg]
          rfl

end LineCalc.Decimal
