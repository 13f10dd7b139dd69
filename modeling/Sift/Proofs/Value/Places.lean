import Mathlib.Tactic.Ring
import Mathlib.Tactic.NormNum
import Mathlib.Tactic.Linarith
import Sift.Decimal

/-!
# Places of doubles, and decimals that tell them

The place of a double is its value in units of `2^-1074` (`Double.key?`). A decimal that stands for
a double need not be equal to it, but it tells its place if it compares with all words as the double
itself would (`Decimal.Tells`). What is relied on of decimals is that they do, but for doubles that
are too near to zero (`Decimals.Lawful`).
-/

namespace Sift

/-! ## 1. Places -/

namespace Double

/-- The unit of places is `2^-1074`. -/
def unit : Nat := 2 ^ 1074

/-- A place that is not so small that its decimal is zero: zero itself, and all from `2 * 10^-28`
    on. -/
def Visible (place : Int) : Prop := place = 0 ∨ 2 * unit ≤ place.natAbs * 10 ^ 28

theorem unit_pos : 0 < unit := by
  rw [unit]
  positivity

/-- What `k` factors of two are to a unit. -/
theorem unit_eq {k : Nat} (hk : k ≤ 1074) : unit = 2 ^ (1074 - k) * 2 ^ k := by
  rw [unit, ← Nat.pow_add, Nat.sub_add_cancel hk]

/-- Integers are not too near to zero. -/
theorem visible_mul_unit (n : Int) : Visible (n * unit) := by
  rcases eq_or_ne n 0 with rfl | hn
  · exact .inl (Int.zero_mul _)
  · right
    rw [Int.natAbs_mul, Int.natAbs_natCast]
    have := Nat.mul_le_mul_right unit (Int.natAbs_pos.mpr hn)
    omega

theorem two_pow_mul_le {a b c : Nat} (h : a + b ≤ c) : 2 ^ a * 2 ^ b ≤ Nat.pow 2 c := by
  rw [← Nat.pow_add]
  exact Nat.pow_le_pow_right (by decide) h

theorem signed_mul (negative : Bool) (a b : Nat) :
    signed negative (a * b) = signed negative a * b := by
  cases negative <;> simp [signed]

theorem natAbs_signed (negative : Bool) (n : Nat) : (signed negative n).natAbs = n := by
  cases negative <;> simp [signed]

/-- A common unit may be left out. -/
theorem compare_mul_right {a b : Int} {c : Nat} (hc : 0 < c) :
    compare (a * c) (b * c) = compare a b := by
  have hc : (0 : Int) < c := by exact_mod_cast hc
  rcases lt_trichotomy a b with h | rfl | h
  · rw [compare_lt_iff_lt.mpr h, compare_lt_iff_lt]
    exact Int.mul_lt_mul_of_pos_right h hc
  · rw [compare_eq_iff_eq.mpr rfl, compare_eq_iff_eq.mpr rfl]
  · rw [compare_gt_iff_gt.mpr h, compare_gt_iff_gt]
    exact Int.mul_lt_mul_of_pos_right h hc

/-- The greater magnitude decides. -/
theorem compare_of_natAbs_lt {negative : Bool} {x : Nat} {j : Int} (h : j.natAbs < x) :
    compare (signed negative x) j = if negative then .lt else .gt := by
  cases negative with
  | true =>
    rw [if_pos rfl, compare_lt_iff_lt, signed, if_pos rfl]
    omega
  | false =>
    rw [if_neg Bool.false_ne_true, compare_gt_iff_gt, signed, if_neg Bool.false_ne_true]
    omega

/-- The parts of a finite double are in range. -/
theorem shape_bounds {x : Float} {negative : Bool} {m : Nat} {e : Int}
    (h : shape x = .finite negative m e) : m < 2 ^ 53 ∧ -1074 ≤ e := by
  unfold shape at h
  dsimp only at h
  have hfraction : x.toBits.toNat % Nat.pow 2 52 < 2 ^ 52 := Nat.mod_lt _ (Nat.two_pow_pos 52)
  have hnormal : Nat.pow 2 52 = 2 ^ 52 := rfl
  split at h
  · split at h <;> cases h
  · split at h
    · cases h
      exact ⟨by omega, by omega⟩
    · next hne =>
      cases h
      exact ⟨by omega, by omega⟩

/-- The place of a finite double. -/
theorem key?_finite {x : Float} {negative : Bool} {m : Nat} {e : Int}
    (h : shape x = .finite negative m e) :
    key? x = some (signed negative (m * 2 ^ (e + 1074).toNat)) := by
  rw [key?, h]
  rfl

end Double

/-! ## 2. Decimals -/

open Double

namespace Decimal

/-- What a decimal of digits without places compares to. -/
theorem compareInt_whole (negative : Bool) (digits : Nat) (n : Int) :
    compareInt ⟨negative, digits, 0⟩ n = Ord.compare (signed negative digits) n := by
  show Ord.compare _ (n * ((10 ^ 0 : Nat) : Int)) = _
  rw [Nat.pow_zero, Nat.cast_one, Int.mul_one]

/-- A decimal compares as a place, with all integers of at most 64 bits. -/
def Tells (d : Decimal) (place : Int) : Prop :=
  ∀ n : Int, n.natAbs ≤ 2 ^ 64 → d.compareInt n = compare place (n * unit)

/-- An integer tells its place. -/
theorem tells_whole (negative : Bool) (n : Nat) :
    Tells ⟨negative, n, 0⟩ (signed negative (n * unit)) := fun m _ => by
  rw [compareInt_whole, signed_mul, compare_mul_right unit_pos]

/-- Past 64 bits any integer tells any place. -/
theorem tells_large {negative : Bool} {digits place : Nat} (hd : 2 ^ 92 ≤ digits)
    (hp : 2 ^ 96 * unit ≤ place) : Tells ⟨negative, digits, 0⟩ (signed negative place) :=
  fun n hn => by
    have hm : (n * unit).natAbs < place := by
      rw [Int.natAbs_mul, Int.natAbs_natCast]
      have := Nat.mul_le_mul_right unit hn
      have := unit_pos
      omega
    rw [compareInt_whole, compare_of_natAbs_lt (by omega), compare_of_natAbs_lt hm]

end Decimal

/-- **What is relied on of decimals.** A double that is not too near to zero has one that tells its
    place, or it is past all words. -/
structure Decimals.Lawful (D : Decimals) : Prop where
  tells : ∀ {x : Float} {place : Int} {d : Decimal}, key? x = some place → Visible place →
    D.ofFloat? x = some d → d.Tells place
  past : ∀ {x : Float} {place : Int}, key? x = some place → Visible place →
    D.ofFloat? x = none → 2 ^ 96 * unit ≤ place.natAbs

end Sift
