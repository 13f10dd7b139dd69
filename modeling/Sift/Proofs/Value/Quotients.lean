import Sift.Proofs.Value.Words
import Mathlib

/-!
# Quotients of words

What is divided by the double of an integer that is not zero is divided by one or more, so that the
quotient of two words is finite (`isFinite_div`), and their product is (`isFinite_mul`).

`Normal t` says of a number of the model that its magnitude is `2^t` or more, and that its mantissa
has all its bits. As for bounds from above, rounding keeps to it (`normal_roundWithAccuracy`), so
does packing (`le_exponentBits_pack`), and what is packed is read again as it was
(`normal_unpack`).
-/

namespace Sift.Double

open Float.Model Float.Model.UnpackedFloat

/-! ## 1. Rounding -/

/-- A number of magnitude `2^t` or more, and with a mantissa of 53 bits. -/
def Normal (t : Int) : UnpackedFloat → Prop
  | .finite _ m e _ => 2 ^ 52 ≤ m ∧ m < 2 ^ 53 ∧ t ≤ 52 + e
  | _ => False

/-- Shifting to the exponent of the format does not make a number less. -/
theorem normal_shift {m b : Nat} {e t : Int} (a : Accuracy) (hm : 2 ^ b ≤ m) (hb : 52 ≤ b)
    (ht : t ≤ b + e) (hmin : -1022 ≤ t) :
    2 ^ 52 ≤ (shiftToTargetExponent .binary64 m e a).1.mantissa ∧
      (shiftToTargetExponent .binary64 m e a).1.mantissa < 2 ^ 53 ∧
        t ≤ 52 + (shiftToTargetExponent .binary64 m e a).2 := by
  simp only [shiftToTargetExponent, shiftToExponent, mantissa_shift,
    mantissa_ofMantissaAndAccuracy, targetExponent_binary64, totalExponent]
  have hne : m ≠ 0 := Nat.pos_iff_ne_zero.mp (Nat.lt_of_lt_of_le (Nat.two_pow_pos b) hm)
  have hlog : b ≤ m.log2 := (Nat.le_log2 hne).mpr hm
  generalize hk : (max ((m.log2 : Int) + 1 + e - 53) (-1074) - e).toNat = k
  obtain rfl : k = m.log2 - 52 := by omega
  have hsum : 52 + (m.log2 - 52) = m.log2 := by omega
  refine ⟨?_, ?_, by omega⟩
  · rw [Nat.le_div_iff_mul_le (Nat.two_pow_pos _), ← Nat.pow_add, hsum]
    exact Nat.log2_self_le hne
  · refine Nat.div_lt_of_lt_mul ?_
    rw [← Nat.pow_add, show m.log2 - 52 + 53 = m.log2 + 1 by omega]
    exact Nat.lt_log2_self

theorem le_roundedMantissa (em : ExtendedMantissa) : em.mantissa ≤ em.roundedMantissa := by
  unfold ExtendedMantissa.roundedMantissa Accuracy.roundToNearestEven
  split <;> omega

/-- **Rounding keeps to the bound.** -/
theorem normal_roundWithAccuracy {m b : Nat} {e t : Int} (s : Sign) (a : Accuracy)
    (hm : 2 ^ b ≤ m) (hb : 52 ≤ b) (ht : t ≤ b + e) (hmin : -1022 ≤ t) :
    Normal t (roundWithAccuracy .binary64 s m e a) := by
  obtain ⟨hlow, -, ht₁⟩ := normal_shift a hm hb ht hmin
  have hr := Nat.le_trans hlow (le_roundedMantissa (shiftToTargetExponent .binary64 m e a).1)
  obtain ⟨hlow₂, hhigh₂, ht₂⟩ := normal_shift .exact hr (Nat.le_refl 52) ht₁ hmin
  unfold roundWithAccuracy
  dsimp only
  split
  · next hzero =>
    rw [hzero] at hlow₂
    cases hlow₂
  · exact ⟨hlow₂, hhigh₂, ht₂⟩

theorem normal_round {m b : Nat} (s : Sign) (hm : 2 ^ b ≤ m) :
    Normal b (UnpackedFloat.round .binary64 s m 0) := by
  unfold UnpackedFloat.round decreaseExponent
  dsimp only
  have hne : m ≠ 0 := Nat.pos_iff_ne_zero.mp (Nat.lt_of_lt_of_le (Nat.two_pow_pos b) hm)
  have hlog : b ≤ m.log2 := (Nat.le_log2 hne).mpr hm
  generalize hs : (0 - Format.binary64.targetExponent (totalExponent m 0)).toNat = shift
  rw [targetExponent_binary64, totalExponent] at hs
  refine normal_roundWithAccuracy (b := m.log2 + shift) s .exact ?_ (by omega) (by push_cast; omega)
    (by omega)
  rw [Nat.shiftLeft_eq, Nat.pow_add]
  exact Nat.mul_le_mul_right _ (Nat.log2_self_le hne)

theorem normal_mul {x y : UnpackedFloat} {t u : Int} (hx : Normal t x) (hy : Normal u y)
    (hmin : -1022 ≤ t + u) : Normal (t + u) (UnpackedFloat.mul .binary64 x y) := by
  cases x with
  | finite s m e h => cases y with
    | finite s' m' e' h' =>
      obtain ⟨hm, -, ht⟩ := hx
      obtain ⟨hm', -, hu⟩ := hy
      refine normal_roundWithAccuracy (b := 52 + 52) _ .exact ?_ (by decide) (by push_cast; omega)
        hmin
      rw [Nat.pow_add]
      exact Nat.mul_le_mul hm hm'
    | _ => cases hy
  | _ => cases hx

theorem normal_neg {x : UnpackedFloat} {t : Int} (h : Normal t x) : Normal t x.neg := by
  cases x <;> exact h

/-- **Dividing by what is large enough** does not make a number much greater. -/
theorem below_div {x y : UnpackedFloat} {t u : Int} (hx : Below t x) (hy : Normal u y)
    (hmin : -1074 ≤ t - u) : Below (t - u + 1) (UnpackedFloat.div .binary64 x y) := by
  cases y with
  | finite s' m' e' h' => cases x with
    | zero _ => trivial
    | finite s m e h =>
      obtain ⟨b, hm, ht⟩ := hx
      obtain ⟨hlow, hhigh, hu⟩ := hy
      have hlog : m.log2 < b := (Nat.log2_lt (Nat.pos_iff_ne_zero.mp h)).mpr hm
      have hlog' : m'.log2 = 52 := (Nat.log2_eq_iff (Nat.pos_iff_ne_zero.mp h')).mpr ⟨hlow, hhigh⟩
      unfold UnpackedFloat.div divCore
      dsimp only
      rw [targetExponent_binary64, totalExponent, totalExponent, hlog']
      generalize hτ : min (e - e') (max _ _) = target
      generalize hk : (e - e' - target).toNat = k
      -- the quotient has as many bits as the mantissas leave it
      refine below_roundWithAccuracy (b := b + k - 52) _ _ ?_ ?_ hmin
      · refine Nat.div_lt_of_lt_mul ?_
        calc m <<< k < 2 ^ (b + k) := by
              rw [Nat.shiftLeft_eq, Nat.pow_add]
              exact Nat.mul_lt_mul_of_pos_right hm (Nat.two_pow_pos k)
          _ ≤ 2 ^ (52 + (b + k - 52)) := Nat.pow_le_pow_right (by decide) (by omega)
          _ = 2 ^ 52 * 2 ^ (b + k - 52) := Nat.pow_add ..
          _ ≤ m' * 2 ^ (b + k - 52) := Nat.mul_le_mul_right _ hlow
      · omega
    | infinity _ => cases hx
    | notANumber => cases hx
  | _ => cases hy

/-! ## 2. Packing -/

/-- **Packing keeps to the bound.** -/
theorem le_exponentBits_pack {x : UnpackedFloat} {t : Int} {u : Nat} (h : Normal t x)
    (hu : Below u x) (ht : -1022 ≤ t) (hlarge : u < 900) :
    t + 1023 ≤ exponentBits (.ofModel (.pack x)) := by
  show t + 1023 ≤ (@unpackExponent .binary64 (UnpackedFloat.pack .binary64 x)).toNat
  cases x with
  | finite s m e hpos =>
    obtain ⟨hlow, hhigh, he⟩ := h
    obtain ⟨b, hm, hb⟩ := hu
    have hlog : m.log2 = 52 := (Nat.log2_eq_iff (Nat.pos_iff_ne_zero.mp hpos)).mpr ⟨hlow, hhigh⟩
    have hbits : m.log2 < b := (Nat.log2_lt (Nat.pos_iff_ne_zero.mp hpos)).mpr hm
    have hbias : Format.binary64.exponentBias = 1023 := rfl
    have hwidth : Format.binary64.mantissaBits = 53 := rfl
    have hsize : (2 : Nat) ^ 11 = 2048 := rfl
    rw [UnpackedFloat.pack]
    simp only [hbias, hwidth, hlog]
    rw [if_neg (by omega), if_pos trivial, unpackExponent_packComponents, BitVec.toNat_ofNat,
      Nat.mod_eq_of_lt (by omega)]
    omega
  | _ => cases h

/-- **Reading what is packed** keeps to the bound. -/
theorem normal_unpack {x : Float} {t : Int} (h : t + 1023 ≤ exponentBits x)
    (hpos : exponentBits x ≠ 0) (hfinite : exponentBits x ≠ 2047) :
    Normal t x.toModel.unpack := by
  have hbits : exponentBits x = (@unpackExponent .binary64 x.toModel.toBits.toBitVec).toNat := rfl
  have hbias : Format.binary64.exponentBias = 1023 := rfl
  rw [hbits] at h hpos hfinite
  unfold Float.Model.unpack UnpackedFloat.unpack
  simp only [hbias]
  rw [if_neg, if_neg]
  · refine ⟨?_, BitVec.isLt _, by push_cast; omega⟩
    rw [BitVec.toNat_append]
    exact Nat.left_le_or
  · rintro hzero
    rw [hzero] at hpos
    exact hpos rfl
  · rintro hinfinite
    rw [hinfinite] at hfinite
    exact hfinite rfl

/-- A double whose exponent is neither the least nor the greatest is no zero. -/
theorem isZero_of_exponentBits {x : Float} (hpos : exponentBits x ≠ 0)
    (hfinite : exponentBits x ≠ 2047) : isZero x = false := by
  have hshape := shape_of_exponentBits hfinite
  rw [if_neg hpos, if_neg hpos] at hshape
  have hunits : 0 < (2 ^ 52 + x.toBits.toNat % 2 ^ 52) *
      2 ^ (exponentBits x - 1075 + 1074 : Int).toNat :=
    Nat.mul_pos (by omega) (Nat.two_pow_pos _)
  rw [isZero, key?_finite hshape]
  simp only [beq_eq_false_iff_ne, ne_eq, Option.some.injEq]
  intro hzero
  rw [← Int.natAbs_eq_zero, natAbs_signed] at hzero
  omega

/-! ## 3. Words -/

theorem normal_word {n : UInt64} (h : n.toNat ≠ 0) :
    Normal 0 (UnpackedFloat.normalize .binary64 n.toNat 0 .positive) := by
  unfold UnpackedFloat.normalize
  split
  · next h' =>
    rw [compare_lt_iff_lt] at h'
    omega
  · next h' =>
    rw [Std.compare_eq_iff_eq] at h'
    omega
  · exact normal_round (b := 0) .positive (Nat.pos_of_ne_zero h)

/-- The number one. -/
theorem normal_one : Normal 0 (Float.ofBits 0x3FF0000000000000).toModel.unpack :=
  normal_unpack (by rw [exponentBits_eq]; decide) (by rw [exponentBits_eq]; decide)
    (by rw [exponentBits_eq]; decide)

/-- **The double nearest to a natural number that is not zero is one or more.** -/
theorem le_exponentBits_ofNat {n k : Nat} (hn : n ≠ 0) (h : n ≤ 2 ^ k) (hk : k < 800) :
    1023 ≤ exponentBits (Float.ofNat n) := by
  rcases ofNat_eq n with ⟨hsmall, heq⟩ | ⟨hlarge, heq⟩
  · have hword : n.toUInt64.toNat ≠ 0 := by
      rw [Nat.toUInt64_eq, UInt64.toNat_ofNat']
      omega
    have hlow : (0 : Int) + 1023 ≤ exponentBits n.toUInt64.toFloat := by
      rw [toFloat_eq_pack]
      exact le_exponentBits_pack (normal_word hword) (below_word _) (by decide) (by decide)
    have hhigh := exponentBits_toFloat n.toUInt64
    have hnormal := normal_unpack hlow (by omega) (by omega)
    have hbelow := below_unpack hhigh (by decide)
    have hproduct := le_exponentBits_pack (u := 67) (normal_mul hnormal normal_one (by decide))
      (below_mul hbelow unpack_one (by decide)) (by decide) (by decide)
    rw [heq]
    exact Int.ofNat_le.mp hproduct
  · obtain ⟨m, hp, hm, hmul⟩ := ofScientific_eq_mul hn
    have hnormal : Normal 0 (UnpackedFloat.ofScientific .binary64 n 0) := by
      rw [hmul]
      refine normal_roundWithAccuracy (b := 53) _ .exact ?_ (by decide) (by decide) (by decide)
      omega
    rw [heq]
    exact Int.ofNat_le.mp (le_exponentBits_pack (t := 0) (u := k + 3) hnormal
      (below_ofScientific h) (by decide) (by omega))

/-- **The double nearest to an integer that is not zero is one or more**, or minus one or less. -/
theorem le_exponentBits_ofInt {n : Int} {k : Nat} (hn : n ≠ 0) (h : n.natAbs ≤ 2 ^ k)
    (hword : 64 ≤ k) (hk : k < 800) : 1023 ≤ exponentBits (Float.ofInt n) := by
  cases n with
  | ofNat n => exact le_exponentBits_ofNat (fun h0 => hn (by rw [h0]; rfl)) h hk
  | negSucc n =>
    have hlow : ((0 : Int) + 1023) ≤ exponentBits (Float.ofNat (n + 1)) :=
      Int.ofNat_le.mpr (le_exponentBits_ofNat (Nat.succ_ne_zero n) h hk)
    have hhigh : exponentBits (Float.ofNat (n + 1)) ≤ k + 3 + 1022 := exponentBits_ofNat h hword hk
    have hnormal := normal_unpack hlow (by omega) (by omega)
    have hbelow := below_unpack hhigh (by omega)
    exact Int.ofNat_le.mp (le_exponentBits_pack (t := 0) (u := k + 3) (normal_neg hnormal)
      (below_neg hbelow) (by decide) (by omega))

/-- The double nearest to an integer is finite, unless the integer is huge. -/
theorem isFinite_ofInt {n : Int} {k : Nat} (h : n.natAbs ≤ 2 ^ k) (hword : 64 ≤ k) (hk : k < 800) :
    isFinite (Float.ofInt n) = true :=
  isFinite_of_exponentBits (by have := exponentBits_ofInt h hword hk; omega)

variable {m n : Int}

theorem isZero_ofInt (hn : n ≠ 0) (h : n.natAbs ≤ 2 ^ 64) : isZero (Float.ofInt n) = false := by
  have hlow := le_exponentBits_ofInt hn h (Nat.le_refl 64) (by decide)
  have hhigh := exponentBits_ofInt h (Nat.le_refl 64) (by decide)
  exact isZero_of_exponentBits (by omega) (by omega)

/-- **The product of two words is finite.** -/
theorem isFinite_mul (hm : m.natAbs ≤ 2 ^ 64) (hn : n.natAbs ≤ 2 ^ 64) :
    isFinite (Float.ofInt m * Float.ofInt n) = true := by
  have hx := below_unpack (exponentBits_ofInt hm (Nat.le_refl 64) (by decide)) (by decide)
  have hy := below_unpack (exponentBits_ofInt hn (Nat.le_refl 64) (by decide)) (by decide)
  have hbits : exponentBits (Float.ofInt m * Float.ofInt n) ≤ 135 + 1022 :=
    exponent_pack (t := 135) (below_mul hx hy (by decide)) (by decide)
  exact isFinite_of_exponentBits (by omega)

/-- **The quotient of two words is finite**, unless the second is zero. -/
theorem isFinite_div (hm : m.natAbs ≤ 2 ^ 64) (hn : n.natAbs ≤ 2 ^ 64) (h0 : n ≠ 0) :
    isFinite (Float.ofInt m / Float.ofInt n) = true := by
  have hx := below_unpack (exponentBits_ofInt hm (Nat.le_refl 64) (by decide)) (by decide)
  have hlow := le_exponentBits_ofInt h0 hn (Nat.le_refl 64) (by decide)
  have hhigh := exponentBits_ofInt hn (Nat.le_refl 64) (by decide)
  have hy : Normal 0 (Float.ofInt n).toModel.unpack :=
    normal_unpack (by omega) (by omega) (by omega)
  have hbits : exponentBits (Float.ofInt m / Float.ofInt n) ≤ 68 + 1022 :=
    exponent_pack (t := 68) (below_div hx hy (by decide)) (by decide)
  exact isFinite_of_exponentBits (by omega)

end Sift.Double
