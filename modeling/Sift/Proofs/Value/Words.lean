import Sift.Proofs.Value.Places
import Mathlib

/-!
# The doubles of words

A double past all decimals is compared with the double nearest to the integer, and for this it is
enough to know that the latter is a number and not much greater than the integer was
(`key?_ofInt`).

The arithmetic of doubles is told by its logical model. `Below t` says of a number of the model that
its magnitude is below `2^t`. Rounding adds at most one to `t` (`below_roundWithAccuracy`), packing
adds nothing (`exponent_pack`), and what is packed is read again as it was (`below_unpack`).
-/

namespace Sift.Double

open Float.Model Float.Model.UnpackedFloat

/-! ## 1. Rounding -/

/-- A number of magnitude below `2^t`. -/
def Below (t : Int) : UnpackedFloat → Prop
  | .zero _ => True
  | .finite _ m e _ => ∃ b : Nat, m < 2 ^ b ∧ b + e ≤ t
  | _ => False

theorem mantissa_shift (em : ExtendedMantissa) (k : Nat) :
    (em >>> k).mantissa = em.mantissa / 2 ^ k := by
  induction k with
  | zero => exact (Nat.div_one _).symm
  | succ k ih =>
    show (em >>> k).mantissa / 2 = _
    rw [ih, Nat.div_div_eq_div_mul, Nat.pow_succ]

theorem mantissa_ofMantissaAndAccuracy (m : Nat) (a : Accuracy) :
    (ExtendedMantissa.ofMantissaAndAccuracy m a).mantissa = m := by
  cases a with
  | exact => rfl
  | inexact o => cases o <;> rfl

theorem roundedMantissa_le (em : ExtendedMantissa) : em.roundedMantissa ≤ em.mantissa + 1 := by
  unfold ExtendedMantissa.roundedMantissa Accuracy.roundToNearestEven
  split <;> omega

theorem targetExponent_binary64 (t : Int) :
    Format.binary64.targetExponent t = max (t - 53) (-1074) := rfl

/-- Shifting to the exponent of the format does not make a number greater. -/
theorem below_shift {m b : Nat} {e t : Int} (a : Accuracy) (hm : m < 2 ^ b) (ht : b + e ≤ t)
    (hmin : -1074 ≤ t) : ∃ b' : Nat,
      (shiftToTargetExponent .binary64 m e a).1.mantissa < 2 ^ b' ∧
        b' + (shiftToTargetExponent .binary64 m e a).2 ≤ t := by
  simp only [shiftToTargetExponent, shiftToExponent, mantissa_shift,
    mantissa_ofMantissaAndAccuracy, targetExponent_binary64, totalExponent]
  have hlog : m ≠ 0 → m.log2 < b := fun h0 => (Nat.log2_lt h0).mpr hm
  generalize hk : (max ((m.log2 : Int) + 1 + e - 53) (-1074) - e).toNat = k
  rcases Nat.lt_or_ge b k with hlt | hge
  · -- all of the mantissa is shifted out, which happens only at the least exponent
    have hzero : m / 2 ^ k = 0 := Nat.div_eq_of_lt (Nat.lt_of_lt_of_le hm
      (Nat.pow_le_pow_right (by decide) (Nat.le_of_lt hlt)))
    refine ⟨0, by rw [hzero]; exact Nat.one_pos, ?_⟩
    rcases Nat.eq_zero_or_pos m with rfl | hpos
    · rw [Nat.log2_zero] at hk
      omega
    · have := hlog (Nat.pos_iff_ne_zero.mp hpos)
      omega
  · refine ⟨b - k, Nat.div_lt_of_lt_mul ?_, by omega⟩
    rwa [← Nat.pow_add, Nat.add_sub_cancel' hge]

/-- **Rounding at most doubles the bound.** -/
theorem below_roundWithAccuracy {m b : Nat} {e t : Int} (s : Sign) (a : Accuracy) (hm : m < 2 ^ b)
    (ht : b + e ≤ t) (hmin : -1074 ≤ t) :
    Below (t + 1) (roundWithAccuracy .binary64 s m e a) := by
  obtain ⟨b₁, hm₁, ht₁⟩ := below_shift a hm ht hmin
  have hr : (shiftToTargetExponent .binary64 m e a).1.roundedMantissa < 2 ^ (b₁ + 1) := by
    have := roundedMantissa_le (shiftToTargetExponent .binary64 m e a).1
    rw [Nat.pow_succ]
    omega
  obtain ⟨b₂, hm₂, ht₂⟩ := below_shift .exact hr
    (e := (shiftToTargetExponent .binary64 m e a).2) (t := t + 1) (by push_cast; omega) (by omega)
  unfold roundWithAccuracy
  dsimp only
  split
  · trivial
  · exact ⟨b₂, hm₂, ht₂⟩

theorem below_round {m b : Nat} {t : Int} (s : Sign) (hm : m < 2 ^ b) (ht : b ≤ t) :
    Below (t + 1) (UnpackedFloat.round .binary64 s m 0) := by
  unfold UnpackedFloat.round decreaseExponent
  dsimp only
  generalize (0 - Format.binary64.targetExponent (totalExponent m 0)).toNat = shift
  refine below_roundWithAccuracy (b := b + shift) s .exact ?_ (by push_cast; omega) (by omega)
  rw [Nat.shiftLeft_eq, Nat.pow_add]
  exact Nat.mul_lt_mul_of_pos_right hm (Nat.two_pow_pos _)

theorem below_mul {x y : UnpackedFloat} {t u : Int} (hx : Below t x) (hy : Below u y)
    (hmin : -1074 ≤ t + u) : Below (t + u + 1) (UnpackedFloat.mul .binary64 x y) := by
  cases x with
  | zero s => cases y with
    | zero _ => trivial
    | finite _ _ _ _ => trivial
    | infinity _ => cases hy
    | notANumber => cases hy
  | finite s m e h => cases y with
    | zero _ => trivial
    | finite _ m' e' _ =>
      obtain ⟨b, hm, ht⟩ := hx
      obtain ⟨b', hm', ht'⟩ := hy
      refine below_roundWithAccuracy (b := b + b') _ .exact ?_ (by push_cast; omega) hmin
      rw [Nat.pow_add]
      exact Nat.mul_lt_mul'' hm hm'
    | infinity _ => cases hy
    | notANumber => cases hy
  | infinity _ => cases hx
  | notANumber => cases hx

theorem below_neg {x : UnpackedFloat} {t : Int} (h : Below t x) : Below t x.neg := by
  cases x <;> exact h

/-! ## 2. Packing -/

/-- The bits of exponent of a double. -/
def exponentBits (x : Float) : Nat := (@unpackExponent .binary64 x.toBits.toBitVec).toNat

/-- **Packing keeps to the bound.** -/
theorem exponent_pack {x : UnpackedFloat} {t : Nat} (h : Below t x) (ht : t < 900) :
    exponentBits (.ofModel (.pack x)) ≤ t + 1022 := by
  show (@unpackExponent .binary64 (UnpackedFloat.pack .binary64 x)).toNat ≤ t + 1022
  cases x with
  | zero s =>
    rw [UnpackedFloat.pack, packedZero, unpackExponent_packComponents]
    exact Nat.zero_le _
  | finite s m e hpos =>
    obtain ⟨b, hm, hb⟩ := h
    have hlog : m.log2 < b := (Nat.log2_lt (Nat.pos_iff_ne_zero.mp hpos)).mpr hm
    have hbias : Format.binary64.exponentBias = 1023 := rfl
    have hwidth : Format.binary64.mantissaBits = 53 := rfl
    rw [UnpackedFloat.pack]
    simp only [hbias, hwidth]
    split
    · next hinfinite =>
      -- this is too far for a bound as small as `t`
      have : (2 : Nat) ^ 11 = 2048 := rfl
      omega
    · split
      · next hnormal =>
        rw [unpackExponent_packComponents, BitVec.toNat_ofNat]
        refine Nat.le_trans (Nat.mod_le _ _) ?_
        omega
      · rw [unpackExponent_packComponents]
        exact Nat.zero_le _
  | infinity _ => cases h
  | notANumber => cases h

/-- **Reading what is packed** keeps to the bound. -/
theorem below_unpack {x : Float} {t : Nat} (h : exponentBits x ≤ t + 1022) (ht : t < 900) :
    Below t x.toModel.unpack := by
  have hbits : (@unpackExponent .binary64 x.toModel.toBits.toBitVec).toNat ≤ t + 1022 := h
  have hbias : Format.binary64.exponentBias = 1023 := rfl
  unfold Float.Model.unpack UnpackedFloat.unpack
  simp only [hbias]
  split
  · next hinfinite =>
    rw [hinfinite] at hbits
    have : (-1#11 : BitVec 11).toNat = 2047 := rfl
    omega
  · split
    · split
      · trivial
      · exact ⟨52, BitVec.isLt _, by omega⟩
    · refine ⟨53, BitVec.isLt _, ?_⟩
      push_cast
      omega

/-- The bits of exponent, told by the number that the bits are. -/
theorem exponentBits_eq (x : Float) : exponentBits x = x.toBits.toNat / 2 ^ 52 % 2 ^ 11 := by
  simp [exponentBits, unpackExponent, BitVec.extractLsb_toNat, Nat.shiftRight_eq_div_pow]

theorem two_pow_mul {a b c d : Nat} (h : a + b = c + d) :
    (2 : Nat) ^ a * 2 ^ b = 2 ^ c * 2 ^ d := by
  rw [← Nat.pow_add, ← Nat.pow_add, h]

/-- A double whose exponent is bounded is finite, and has these parts. -/
theorem shape_of_exponentBits {x : Float} (h : exponentBits x ≠ 2047) :
    shape x = .finite (decide (Nat.pow 2 63 ≤ x.toBits.toNat))
      (if exponentBits x = 0 then x.toBits.toNat % 2 ^ 52 else 2 ^ 52 + x.toBits.toNat % 2 ^ 52)
      (if exponentBits x = 0 then -1074 else (exponentBits x : Int) - 1075) := by
  rw [exponentBits_eq] at h ⊢
  by_cases h0 : x.toBits.toNat / 2 ^ 52 % 2 ^ 11 = 0
  · rw [if_pos h0, if_pos h0]
    exact (if_neg h).trans (if_pos h0)
  · rw [if_neg h0, if_neg h0]
    exact (if_neg h).trans (if_neg h0)

theorem isFinite_of_exponentBits {x : Float} (h : exponentBits x ≠ 2047) : isFinite x = true := by
  rw [isFinite, shape_of_exponentBits h]

/-- The place of a double whose exponent is bounded. -/
theorem key?_of_exponentBits {x : Float} {t : Nat} (h : exponentBits x ≤ t + 1022) (ht : t < 900) :
    ∃ place, key? x = some place ∧ place.natAbs < 2 ^ t * unit := by
  have hfraction : x.toBits.toNat % 2 ^ 52 < 2 ^ 52 := Nat.mod_lt _ (Nat.two_pow_pos 52)
  have hunit : 2 ^ t * unit = 2 ^ 52 * 2 ^ (t + 1022) := two_pow_mul (by omega)
  rw [hunit]
  refine ⟨_, key?_finite (shape_of_exponentBits (by omega)), ?_⟩
  generalize exponentBits x = e at h
  rw [natAbs_signed]
  split
  · rw [show ((-1074 : Int) + 1074).toNat = 0 from rfl, Nat.pow_zero, Nat.mul_one]
    exact Nat.lt_of_lt_of_le hfraction (Nat.le_mul_of_pos_right _ (Nat.two_pow_pos _))
  · next hne =>
    rw [two_pow_mul (by omega : 52 + (t + 1022) = 53 + (t + 1021))]
    refine Nat.mul_lt_mul_of_lt_of_le (by omega) (Nat.pow_le_pow_right (by decide) (by omega))
      (Nat.two_pow_pos _)

/-! ## 3. Words -/

theorem exponentBits_neg {x : Float} {t : Nat} (h : exponentBits x ≤ t + 1022) (ht : t < 900) :
    exponentBits x.neg ≤ t + 1022 :=
  exponent_pack (below_neg (below_unpack h ht)) ht

/-- The number one. -/
theorem unpack_one : Below 1 (Float.ofBits 0x3FF0000000000000).toModel.unpack :=
  below_unpack (x := Float.ofBits 0x3FF0000000000000) (t := 1) (by
    rw [exponentBits_eq]
    decide) (by decide)

theorem toFloat_eq_pack (n : UInt64) : n.toFloat =
    .ofModel (.pack (UnpackedFloat.normalize .binary64 n.toNat 0 .positive)) := rfl

theorem below_word (n : UInt64) :
    Below 65 (UnpackedFloat.normalize .binary64 n.toNat 0 .positive) := by
  unfold UnpackedFloat.normalize
  split
  · next h =>
    rw [compare_lt_iff_lt] at h
    omega
  · trivial
  · exact below_round .positive n.toNat_lt (Int.le_refl 64)

/-- The double nearest to a word, as a word. -/
theorem exponentBits_toFloat (n : UInt64) : exponentBits n.toFloat ≤ 65 + 1022 := by
  rw [toFloat_eq_pack]
  exact exponent_pack (below_word n) (by decide)

/-- A natural number that is not zero, as a product by one. -/
theorem ofScientific_eq_mul {n : Nat} (hn : n ≠ 0) : ∃ (m : Nat) (hp : 0 < m), m = n * 2 ^ 53 ∧
    UnpackedFloat.ofScientific .binary64 n 0 =
      UnpackedFloat.mul .binary64 (.finite .positive m (-53) hp)
        (.finite .positive 1 0 Nat.one_pos) := by
  refine ⟨n <<< 53, ?_, Nat.shiftLeft_eq n 53, ?_⟩
  · rw [Nat.shiftLeft_eq]
    exact Nat.mul_pos (Nat.pos_of_ne_zero hn) (Nat.two_pow_pos 53)
  · unfold UnpackedFloat.ofScientific
    rw [dif_neg hn, if_neg (by decide), if_neg ?_, if_pos (Int.le_refl 0)]
    · rfl
    · show ¬(0 : Int) < -(2 ^ 11 + (n.log2 : Int))
      omega

/-- A natural number, as its digits are read. -/
theorem below_ofScientific {n k : Nat} (h : n ≤ 2 ^ k) :
    Below (k + 3) (UnpackedFloat.ofScientific .binary64 n 0) := by
  rcases Nat.eq_zero_or_pos n with rfl | hn
  · trivial
  obtain ⟨m, hp, hm, heq⟩ := ofScientific_eq_mul (Nat.pos_iff_ne_zero.mp hn)
  have hlt : m < 2 ^ (k + 54) := by
    rw [hm, Nat.pow_add]
    have := Nat.mul_le_mul_right (2 ^ 53) h
    have := Nat.two_pow_pos k
    omega
  have hmantissa : Below (k + 1) (.finite .positive m (-53) hp) :=
    ⟨k + 54, hlt, by push_cast; omega⟩
  have hone : Below 1 (.finite .positive 1 0 Nat.one_pos) := ⟨1, by decide, by omega⟩
  rw [heq, show (k + 3 : Int) = k + 1 + 1 + 1 by omega]
  exact below_mul hmantissa hone (by omega)
/-- How a natural number becomes a double: by way of a word if it is small. -/
theorem ofNat_eq (n : Nat) :
    n < 2 ^ 53 ∧ Float.ofNat n = n.toUInt64.toFloat * Float.ofBits 0x3FF0000000000000 ∨
      2 ^ 53 ≤ n ∧ Float.ofNat n = .ofModel (.pack (UnpackedFloat.ofScientific .binary64 n 0)) := by
  by_cases hsmall : n < 2 ^ 53
  · refine .inl ⟨hsmall, ?_⟩
    show Float.ofScientific n false 0 = _
    rw [Float.ofScientific, dif_pos ⟨hsmall, by decide⟩]
    rfl
  · refine .inr ⟨Nat.le_of_not_lt hsmall, ?_⟩
    show Float.ofScientific n false 0 = _
    rw [Float.ofScientific, dif_neg fun h => hsmall h.1]
    rfl

/-- **The double nearest to a natural number is not much greater.** -/
theorem exponentBits_ofNat {n k : Nat} (h : n ≤ 2 ^ k) (hword : 64 ≤ k) (hk : k < 800) :
    exponentBits (Float.ofNat n) ≤ k + 3 + 1022 := by
  rcases ofNat_eq n with ⟨-, heq⟩ | ⟨-, heq⟩
  · have hone := below_unpack (exponentBits_toFloat n.toUInt64) (by decide)
    rw [heq]
    exact Nat.le_trans (exponent_pack (t := 67) (below_mul hone unpack_one (by decide)) (by decide))
      (by omega)
  · rw [heq]
    exact exponent_pack (below_ofScientific h) (by omega)

/-- **The double nearest to an integer is not much greater.** -/
theorem exponentBits_ofInt {n : Int} {k : Nat} (h : n.natAbs ≤ 2 ^ k) (hword : 64 ≤ k)
    (hk : k < 800) : exponentBits (Float.ofInt n) ≤ k + 3 + 1022 := by
  cases n with
  | ofNat n => exact exponentBits_ofNat h hword hk
  | negSucc n => exact exponentBits_neg (exponentBits_ofNat h hword hk) (by omega)

/-- **The place of the double nearest to an integer of 64 bits.** -/
theorem key?_ofInt {n : Int} (h : n.natAbs ≤ 2 ^ 64) :
    ∃ place, key? (Float.ofInt n) = some place ∧ place.natAbs < 2 ^ 70 * unit := by
  have hbits : exponentBits (Float.ofInt n) ≤ 67 + 1022 :=
    exponentBits_ofInt h (Nat.le_refl 64) (by decide)
  exact key?_of_exponentBits (Nat.le_trans hbits (by decide)) (by decide)

end Sift.Double
