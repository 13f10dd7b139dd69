import Sift.Standard
import Sift.Proofs.Value.Places

/-!
# Decimals of 28 places

The decimal of 28 places that stands for a double is not always equal to it. It lies between the
same two integers, though (`Between`), unless the double is so small that the decimal is zero.
Therefore it tells the place of the double (`Decimals.lawful_standard`).

* A double with a factor of two to spare is an integer, and its decimal is exact or lies past all
  words of 64 bits (`lower_exact`, `lower_large`).
* Otherwise its factors of two are brought in as fives, one after the other, and each may lose half
  of a unit of a number that has 93 bits or more (`raise_spec`). The digits past the 28th place are
  cut off with a loss of less than a unit (`le_cut`, `cut_le`).
-/

namespace Sift.Double.Fixed

/-! ## 1. Factors of five taken out -/

/-- While the digits stay below the bound, twos are multiplied in. -/
theorem lower_exact : ∀ {n d : Nat} {t : Int}, d * 2 ^ n < 2 ^ 96 →
    lower n ⟨d, t⟩ = ⟨d * 2 ^ n, t - n⟩
  | 0, d, t, _ => by simp [lower]
  | n + 1, d, t, h => by
    have hone : 1 ≤ 2 ^ n := Nat.one_le_two_pow
    have hpow : d * 2 ^ (n + 1) = d * 2 * 2 ^ n := by ring
    have hd : d < Nat.pow 2 95 := by
      show d < 2 ^ 95
      have := Nat.mul_le_mul_left (d * 2) hone
      omega
    rw [lower, if_pos hd, lower_exact (by rwa [← hpow]), hpow]
    congr 1
    push_cast
    ring

/-- Digits of 93 bits or more stay so. -/
theorem le_lower : ∀ {n d : Nat} {t : Int}, 2 ^ 92 ≤ d → 2 ^ 92 ≤ (lower n ⟨d, t⟩).digits
  | 0, _, _, h => h
  | n + 1, d, t, h => by
    rw [lower]
    split
    · exact le_lower (by show 2 ^ 92 ≤ d * 2; omega)
    · next hge =>
      have hge : ¬d < 2 ^ 95 := hge
      exact le_lower (by show 2 ^ 92 ≤ d / 5; omega)

/-- Where the digits would reach the bound, they have 93 bits or more in the end. -/
theorem lower_large : ∀ {n d : Nat} {t : Int}, 2 ^ 96 ≤ d * 2 ^ n →
    2 ^ 92 ≤ (lower n ⟨d, t⟩).digits
  | 0, d, _, h => by
    show 2 ^ 92 ≤ d
    omega
  | n + 1, d, t, h => by
    rw [lower]
    split
    · exact lower_large (by show 2 ^ 96 ≤ d * 2 * 2 ^ n; rwa [Nat.mul_assoc, ← Nat.pow_succ'])
    · next hge =>
      have hge : ¬d < 2 ^ 95 := hge
      exact le_lower (by show 2 ^ 92 ≤ d / 5; omega)

/-- No more tens are taken than there are fives. -/
theorem tens_lower : ∀ {n : Nat} {s : Scaling}, s.tens - n ≤ (lower n s).tens
  | 0, s => by simp [lower]
  | n + 1, s => by
    rw [lower]
    split
    · have := tens_lower (n := n) (s := ⟨s.digits * 2, s.tens - 1⟩)
      dsimp only at this
      omega
    · have := tens_lower (n := n) (s := ⟨s.digits / 5, s.tens⟩)
      dsimp only at this
      omega

theorem le_grow : ∀ {n d d' : Nat}, grow? n d = some d' → d ≤ d'
  | 0, _, _, h => by
    cases h
    exact Nat.le_refl _
  | n + 1, d, d', h => by
    rw [grow?] at h
    split at h
    · have := le_grow h
      omega
    · cases h

/-! ## 2. Factors of five brought in -/

/-- Twos that are there are divided out. -/
theorem raise_exact : ∀ {n d : Nat} {t : Int}, raise n ⟨d * 2 ^ n, t⟩ = ⟨d, t + n⟩
  | 0, d, t => by simp [raise]
  | n + 1, d, t => by
    have hpow : d * 2 ^ (n + 1) = d * 2 ^ n * 2 := by ring
    rw [raise, if_pos (by dsimp only; omega)]
    dsimp only
    rw [hpow, Nat.mul_div_cancel _ (by decide), raise_exact]
    congr 1
    push_cast
    ring

/-- A two divided out of `d`, with a remainder or none, where `v` and `a` are the values before and
    after it. -/
theorem lost_of_halved {b a v n : Nat} {r : Nat} (ha : 10 * a ≤ v)
    (hv : b * v ≤ 10 * (b * a) + 5 * v) (h : b * a ≤ b * r + 5 * n * a) :
    b * v ≤ b * (r * 10) + 5 * (n + 1) * v := by
  have hn : 5 * n * (10 * a) ≤ 5 * n * v := Nat.mul_le_mul_left _ ha
  calc b * v ≤ 10 * (b * a) + 5 * v := hv
    _ ≤ 10 * (b * r + 5 * n * a) + 5 * v := by omega
    _ = b * (r * 10) + 5 * n * (10 * a) + 5 * v := by ring
    _ ≤ b * (r * 10) + 5 * n * v + 5 * v := by omega
    _ = b * (r * 10) + 5 * (n + 1) * v := by ring

/-- **Bringing in fives** takes `h` tens. What is lost of the value is at most 5 parts in `2^96` for
    each five. -/
theorem raise_spec : ∀ (n d : Nat) (t : Int), ∃ d' h : Nat, raise n ⟨d, t⟩ = ⟨d', t + h⟩ ∧ h ≤ n ∧
    d' * 10 ^ h ≤ d * 5 ^ n ∧
      2 ^ 96 * (d * 5 ^ n) ≤ 2 ^ 96 * (d' * 10 ^ h) + 5 * n * (d * 5 ^ n)
  | 0, d, t => ⟨d, 0, by simp [raise], Nat.le_refl 0, by omega, by omega⟩
  | n + 1, d, t => by
    have hfive : d * 5 ^ (n + 1) = 5 * (d * 5 ^ n) := by ring
    -- a two divided out, where nothing or one half of a unit is lost
    have halved (r : Nat) (hd : d = d / 2 * 2 + r) (hr : 2 ^ 96 * r ≤ d * 5) :
        ∃ d' h : Nat, raise n ⟨d / 2, t + 1⟩ = ⟨d', t + h⟩ ∧ h ≤ n + 1 ∧
          d' * 10 ^ h ≤ d * 5 ^ (n + 1) ∧ 2 ^ 96 * (d * 5 ^ (n + 1)) ≤
            2 ^ 96 * (d' * 10 ^ h) + 5 * (n + 1) * (d * 5 ^ (n + 1)) := by
      obtain ⟨d', h, heq, hle, hup, hlow⟩ := raise_spec n (d / 2) (t + 1)
      have hv : d * 5 ^ (n + 1) = 10 * (d / 2 * 5 ^ n) + r * 5 * 5 ^ n := by
        calc d * 5 ^ (n + 1) = (d / 2 * 2 + r) * 5 ^ (n + 1) := by rw [← hd]
          _ = 10 * (d / 2 * 5 ^ n) + r * 5 * 5 ^ n := by ring
      have hten : d' * 10 ^ (h + 1) = d' * 10 ^ h * 10 := by ring
      refine ⟨d', h + 1, ?_, by omega, ?_, ?_⟩
      · rw [heq]
        congr 1
        push_cast
        ring
      · omega
      · rw [hten]
        refine lost_of_halved (by omega) ?_ hlow
        calc 2 ^ 96 * (d * 5 ^ (n + 1))
            = 10 * (2 ^ 96 * (d / 2 * 5 ^ n)) + 5 * (2 ^ 96 * r * 5 ^ n) := by rw [hv]; ring
          _ ≤ 10 * (2 ^ 96 * (d / 2 * 5 ^ n)) + 5 * (d * 5 * 5 ^ n) := by
            have := Nat.mul_le_mul_right (5 ^ n) hr
            omega
          _ = 10 * (2 ^ 96 * (d / 2 * 5 ^ n)) + 5 * (d * 5 ^ (n + 1)) := by ring
    rw [raise]
    split
    · next heven => exact halved 0 (by dsimp only at heven; omega) (by omega)
    · split
      · obtain ⟨d', h, heq, hle, hup, hlow⟩ := raise_spec n (d * 5) t
        have hv : d * 5 * 5 ^ n = d * 5 ^ (n + 1) := by ring
        rw [hv] at hup hlow
        refine ⟨d', h, heq, by omega, hup, Nat.le_trans hlow (Nat.add_le_add_left ?_ _)⟩
        exact Nat.mul_le_mul_right _ (by omega)
      · next hodd hge =>
        have hge : ¬d * 5 < 2 ^ 96 := hge
        exact halved 1 (by dsimp only at hodd; omega) (by omega)

/-! ## 3. Digits cut off -/

/-- What is left after one digit, and that it is near a tenth. -/
theorem cut_succ (n d : Nat) : cut (n + 1) d = 0 ∧ d < 10 ∨
    ∃ k, cut (n + 1) d = cut n k ∧ d < 10 * (k + 1) ∧ 10 * k ≤ d + 5 := by
  rw [cut]
  split
  · next h => exact .inl ⟨rfl, by omega⟩
  · split
    · exact .inr ⟨d / 10 + 1, rfl, by omega, by omega⟩
    · exact .inr ⟨d / 10, rfl, by omega, by omega⟩

/-- Cutting off digits loses less than a unit. -/
theorem lt_cut : ∀ {n d : Nat}, d < (cut n d + 1) * 10 ^ n
  | 0, d => by
    rw [cut]
    omega
  | n + 1, d => by
    rcases cut_succ n d with ⟨h, hd⟩ | ⟨k, h, hd, -⟩
    · have : 1 ≤ 10 ^ n := Nat.one_le_pow _ _ (by decide)
      rw [h, Nat.pow_succ]
      omega
    · have hk := @lt_cut n k
      rw [h, Nat.pow_succ, ← Nat.mul_assoc]
      omega

/-- Cutting off digits adds less than five ninths of a unit. -/
theorem cut_le : ∀ {n d : Nat}, 9 * (cut n d * 10 ^ n) + 5 ≤ 9 * d + 5 * 10 ^ n
  | 0, d => by
    rw [cut]
    omega
  | n + 1, d => by
    have hten : 10 ^ (n + 1) = 10 * 10 ^ n := Nat.pow_succ'
    rcases cut_succ n d with ⟨h, hd⟩ | ⟨k, h, -, hd⟩
    · have : 1 ≤ 10 ^ n := Nat.one_le_pow _ _ (by decide)
      rw [h, hten]
      omega
    · have hk := @cut_le n k
      have hcut : cut n k * (10 * 10 ^ n) = 10 * (cut n k * 10 ^ n) := by ring
      rw [h, hten, hcut]
      omega

/-! ## 4. Between two integers -/

/-- Strictly between the integers `n` and `n + 1`, both numbers being in units of which `unit` make
    one. -/
def Between (n unit x : Nat) : Prop := n * unit < x ∧ x < (n + 1) * unit

/-- Such a number is greater than the lower integer and all before it, and less than all others. -/
theorem Between.compare_signed {n unit x : Nat} (h : Between n unit x) (negative : Bool) (m : Int) :
    compare (signed negative x) (m * unit) =
      if negative then if -(n : Int) ≤ m then .lt else .gt
      else if m ≤ n then .gt else .lt := by
  obtain ⟨h₁, h₂⟩ := h
  have h₁ : (n : Int) * unit < x := by exact_mod_cast h₁
  have h₂ : (x : Int) < (n + 1) * unit := by exact_mod_cast h₂
  have hunit : (0 : Int) ≤ unit := Int.natCast_nonneg unit
  cases negative with
  | true =>
    simp only [signed, if_true]
    split
    · next hm =>
      have := Int.mul_le_mul_of_nonneg_right hm hunit
      rw [compare_lt_iff_lt]
      linarith
    · next hm =>
      have := Int.mul_le_mul_of_nonneg_right (show m ≤ -((n : Int) + 1) by omega) hunit
      rw [compare_gt_iff_gt]
      linarith
  | false =>
    simp only [signed, Bool.false_eq_true, if_false]
    split
    · next hm =>
      have := Int.mul_le_mul_of_nonneg_right hm hunit
      rw [compare_gt_iff_gt]
      linarith
    · next hm =>
      have := Int.mul_le_mul_of_nonneg_right (show (n : Int) + 1 ≤ m by omega) hunit
      rw [compare_lt_iff_lt]
      linarith

/-- **Numbers between the same two integers compare alike with every integer**, also when both are
    negative. -/
theorem Between.compare_eq {n a x b y : Nat} (hx : Between n a x) (hy : Between n b y)
    (negative : Bool) (m : Int) :
    compare (signed negative x) (m * a) = compare (signed negative y) (m * b) := by
  rw [hx.compare_signed, hy.compare_signed]

/-- A common factor of number and unit may be left out. -/
theorem Between.of_mul {n unit x k : Nat} (h : Between n (unit * k) (x * k)) :
    Between n unit x := by
  obtain ⟨h₁, h₂⟩ := h
  rw [← Nat.mul_assoc] at h₁ h₂
  exact ⟨lt_of_mul_lt_mul_right h₁ (Nat.zero_le k), lt_of_mul_lt_mul_right h₂ (Nat.zero_le k)⟩

/-! ## 5. The digits of a fraction -/

/-- What `cut` makes of digits, in units of the digits. It is wrong by less than `s`, which is
    nothing if there is nothing to cut off, and a unit of the 28th place otherwise. -/
theorem cut_near (d h p : Nat) : ∃ s, s * 10 ^ 28 ≤ 10 ^ (p + h) ∧
    d * 10 ^ h ≤ cut (p - 28) d * 10 ^ (p - 28 + h) + s ∧
      9 * (cut (p - 28) d * 10 ^ (p - 28 + h)) ≤ 9 * (d * 10 ^ h) + 5 * s := by
  rcases Nat.le_total p 28 with hp | hp
  · rw [Nat.sub_eq_zero_of_le hp, cut, Nat.zero_add]
    exact ⟨0, by rw [Nat.zero_mul]; exact Nat.zero_le _, Nat.le_refl _, Nat.le_refl _⟩
  · have hpow : 10 ^ (p - 28 + h) * 10 ^ 28 = 10 ^ (p + h) := by
      rw [← Nat.pow_add]
      congr 1
      omega
    have hsplit : 10 ^ (p - 28 + h) = 10 ^ (p - 28) * 10 ^ h := Nat.pow_add 10 _ h
    refine ⟨10 ^ (p - 28 + h), Nat.le_of_eq hpow, ?_, ?_⟩
    · have hcut := Nat.mul_le_mul_right (10 ^ h) (Nat.le_of_lt (@lt_cut (p - 28) d))
      rw [hsplit]
      linarith
    · have hcut := Nat.mul_le_mul_right (10 ^ h) (@cut_le (p - 28) d)
      have hpos := Nat.zero_le (10 ^ h)
      rw [hsplit]
      linarith

/-- **Why the decimal of a fraction is between the same integers.** The fraction is `m / 2^k`, and
    is `m * 5^k` in units of `10^-k`. Of this `d` is left with the fives brought in, and `x` with
    the digits cut off, as `s` tells. -/
theorem between_of_near {m k d x s : Nat} (hm : m < 2 ^ 53) (hk : k ≤ 1074)
    (hfraction : m % 2 ^ k ≠ 0) (hvisible : 2 * 2 ^ k ≤ m * 10 ^ 28) (hup : d ≤ m * 5 ^ k)
    (hlow : 2 ^ 96 * (m * 5 ^ k) ≤ 2 ^ 96 * d + 5 * k * (m * 5 ^ k)) (hs : s * 10 ^ 28 ≤ 10 ^ k)
    (hdx : d ≤ x + s) (hxd : 9 * x ≤ 9 * d + 5 * s) : Between (m / 2 ^ k) (10 ^ k) x := by
  have hten : 10 ^ k = 2 ^ k * 5 ^ k := by rw [← Nat.mul_pow]
  have hfive : 0 < 5 ^ k := by positivity
  have hk5 : 5 * k * (m * 5 ^ k) ≤ 5370 * (m * 5 ^ k) := Nat.mul_le_mul_right _ (by omega)
  have hm5 : m * 5 ^ k < 2 ^ 53 * 5 ^ k := Nat.mul_lt_mul_of_pos_right hm hfive
  rw [hten] at hs ⊢
  rcases Nat.lt_or_ge 53 k with hlarge | hsmall
  · -- the fraction is less than a half, and more than its last place
    have hhalf : 2 * 2 ^ 53 ≤ 2 ^ k := by
      rw [← Nat.pow_succ']
      exact Nat.pow_le_pow_right (by decide) hlarge
    have hhalf5 : 2 * 2 ^ 53 * 5 ^ k ≤ 2 ^ k * 5 ^ k := Nat.mul_le_mul_right _ hhalf
    have hvisible5 : 2 * (2 ^ k * 5 ^ k) ≤ 10 ^ 28 * (m * 5 ^ k) := by
      have := Nat.mul_le_mul_right (5 ^ k) hvisible
      linarith
    rw [Nat.div_eq_of_lt (by omega : m < 2 ^ k)]
    generalize m * 5 ^ k = v at *
    generalize 2 ^ k * 5 ^ k = e at *
    exact ⟨by omega, by omega⟩
  · -- the fraction is away from the integers by more than its decimal is from it
    have hs5 : s * 10 ^ 28 ≤ 2 ^ 53 * 5 ^ k := Nat.le_trans hs <|
      Nat.mul_le_mul_right _ (Nat.pow_le_pow_right (by decide) hsmall)
    have hdiv := Nat.div_add_mod m (2 ^ k)
    have hmod := Nat.mod_lt m (Nat.two_pow_pos k)
    have hbelow : m / 2 ^ k * (2 ^ k * 5 ^ k) + 5 ^ k ≤ m * 5 ^ k := by
      have := Nat.mul_le_mul_right (5 ^ k) (by omega : 2 ^ k * (m / 2 ^ k) + 1 ≤ m)
      linarith
    have habove : m * 5 ^ k + 5 ^ k ≤ (m / 2 ^ k + 1) * (2 ^ k * 5 ^ k) := by
      have := Nat.mul_le_mul_right (5 ^ k) (by omega : m + 1 ≤ 2 ^ k * (m / 2 ^ k) + 2 ^ k)
      linarith
    unfold Between
    generalize (m / 2 ^ k + 1) * (2 ^ k * 5 ^ k) = above at *
    generalize m / 2 ^ k * (2 ^ k * 5 ^ k) = below at *
    generalize m * 5 ^ k = v at *
    have hk5' : 5 * k * v ≤ 265 * v := Nat.mul_le_mul_right _ (by omega)
    exact ⟨by omega, by omega⟩

/-! ## 6. Decimals of doubles -/

/-- The digits on the way, as the decimal that they are in the end. -/
def ofScaling? (negative : Bool) (s : Scaling) : Option Decimal :=
  if 0 < s.tens then (grow? s.tens.toNat s.digits).map (⟨negative, ·, 0⟩)
  else some ⟨negative, cut ((-s.tens).toNat - mostPlaces) s.digits, min (-s.tens).toNat mostPlaces⟩

theorem ofFloat?_finite {x : Float} {negative : Bool} {m : Nat} {e : Int}
    (h : shape x = .finite negative m e) (hm : m ≠ 0) :
    ofFloat? x = ofScaling? negative (lower e.toNat (raise (-e).toNat ⟨m, e⟩)) := by
  rw [ofFloat?, h]
  dsimp only
  rw [if_neg hm]
  rfl

/-- Digits without tens are an integer. -/
theorem ofScaling?_zero (negative : Bool) (d : Nat) :
    ofScaling? negative ⟨d, 0⟩ = some ⟨negative, d, 0⟩ := rfl

/-- Digits that are large stay so, if they are a decimal at all. -/
theorem ofScaling?_large {negative : Bool} {s : Scaling} (ht : 0 ≤ s.tens) {d : Decimal}
    (h : ofScaling? negative s = some d) :
    ∃ digits, d = ⟨negative, digits, 0⟩ ∧ s.digits ≤ digits := by
  unfold ofScaling? at h
  split at h
  · obtain ⟨digits, hg, rfl⟩ := Option.map_eq_some_iff.mp h
    exact ⟨digits, rfl, le_grow hg⟩
  · have hzero : (-s.tens).toNat = 0 := by omega
    rw [hzero] at h
    cases h
    exact ⟨s.digits, rfl, Nat.le_refl _⟩

/-- The decimal of a double that is an integer. -/
theorem ofFloat?_integer {negative : Bool} {m e : Nat} :
    match ofScaling? negative (lower e ⟨m, e⟩) with
    | some d => d.Tells (signed negative (m * 2 ^ e * unit))
    | none => 2 ^ 96 ≤ m * 2 ^ e := by
  rcases Nat.lt_or_ge (m * 2 ^ e) (2 ^ 96) with hsmall | hlarge
  · rw [lower_exact hsmall, Int.sub_self, ofScaling?_zero]
    exact Decimal.tells_whole negative _
  · have htens : 0 ≤ (lower e ⟨m, e⟩).tens := by
      have := @tens_lower e ⟨m, e⟩
      dsimp only at this
      omega
    split
    · next d h =>
      obtain ⟨digits, rfl, hd⟩ := ofScaling?_large htens h
      exact Decimal.tells_large (Nat.le_trans (lower_large hlarge) hd)
        (Nat.mul_le_mul_right unit hlarge)
    · exact hlarge

/-- The decimal of a double that is a fraction, and of one that is an integer all the same. -/
theorem ofFloat?_fraction {negative : Bool} {m k : Nat} (hm : m < 2 ^ 53) (hk : k ≤ 1074)
    (hvisible : 2 * unit ≤ m * 2 ^ (1074 - k) * 10 ^ 28) :
    ∃ d, ofScaling? negative (raise k ⟨m, -k⟩) = some d ∧
      d.Tells (signed negative (m * 2 ^ (1074 - k))) := by
  by_cases hwhole : m % 2 ^ k = 0
  · obtain ⟨n, rfl⟩ := Nat.dvd_of_mod_eq_zero hwhole
    refine ⟨⟨negative, n, 0⟩, ?_, ?_⟩
    · rw [Nat.mul_comm, raise_exact, Int.add_left_neg, ofScaling?_zero]
    · have htwos : n * (2 ^ (1074 - k) * 2 ^ k) = 2 ^ k * n * 2 ^ (1074 - k) := by ring
      have := Decimal.tells_whole negative n
      rwa [unit_eq hk, htwos] at this
  · obtain ⟨d, h, hraise, hle, hup, hlow⟩ := raise_spec k m (-k)
    have hplaces : (-(-(k : Int) + h)).toNat = k - h := by omega
    rw [hraise, ofScaling?, if_neg (by dsimp only; omega)]
    dsimp only
    rw [hplaces]
    refine ⟨_, rfl, fun n _ => ?_⟩
    obtain ⟨s, hs, hdx, hxd⟩ := cut_near d h (k - h)
    rw [Nat.sub_add_cancel hle] at hs
    have htwo := Nat.two_pow_pos (1074 - k)
    have hvisible' : 2 * 2 ^ k ≤ m * 10 ^ 28 := by
      refine le_of_mul_le_mul_right ?_ htwo
      rw [unit_eq hk] at hvisible
      linarith
    have hnear := between_of_near hm hk hwhole hvisible' hup hlow hs hdx hxd
    have hdigits : Between (m / 2 ^ k) (10 ^ min (k - h) mostPlaces)
        (cut (k - h - mostPlaces) d) := by
      refine Between.of_mul (k := 10 ^ (k - h - 28 + h)) ?_
      rwa [← Nat.pow_add, show min (k - h) mostPlaces + (k - h - 28 + h) = k by
        rw [mostPlaces]; omega]
    have hplace : Between (m / 2 ^ k) unit (m * 2 ^ (1074 - k)) := by
      have hdiv := Nat.div_add_mod m (2 ^ k)
      have hmod := Nat.mod_lt m (Nat.two_pow_pos k)
      rw [unit_eq hk]
      constructor
      · have := Nat.mul_lt_mul_of_pos_right (by omega : 2 ^ k * (m / 2 ^ k) < m) htwo
        linarith
      · have := Nat.mul_lt_mul_of_pos_right (by omega : m < 2 ^ k * (m / 2 ^ k) + 2 ^ k) htwo
        linarith
    exact hdigits.compare_eq hplace negative n

/-- The decimal of a double of these parts, if there is one, and its place. -/
theorem ofScaling?_tells {negative : Bool} {m : Nat} {e : Int} (hm : m < 2 ^ 53) (he : -1074 ≤ e)
    (hzero : m ≠ 0) (hv : Visible (signed negative (m * 2 ^ (e + 1074).toNat))) :
    match ofScaling? negative (lower e.toNat (raise (-e).toNat ⟨m, e⟩)) with
    | some d => d.Tells (signed negative (m * 2 ^ (e + 1074).toNat))
    | none => 2 ^ 96 * unit ≤ (signed negative (m * 2 ^ (e + 1074).toNat)).natAbs := by
  rcases lt_or_ge e 0 with hneg | hpos
  · obtain ⟨k, rfl⟩ : ∃ k : Nat, e = -k := ⟨(-e).toNat, by omega⟩
    have hplace : (-(k : Int) + 1074).toNat = 1074 - k := by omega
    rw [hplace] at hv ⊢
    have hvisible := hv.resolve_left fun h0 => by
      have h0 := congrArg Int.natAbs h0
      rw [natAbs_signed, Int.natAbs_zero] at h0
      exact Nat.mul_ne_zero hzero (Nat.two_pow_pos _).ne' h0
    rw [natAbs_signed] at hvisible
    obtain ⟨d, hd, htells⟩ := @ofFloat?_fraction negative m k hm (by omega) hvisible
    rw [show (-(k : Int)).toNat = 0 by omega, show (- -(k : Int)).toNat = k by omega, lower, hd]
    exact htells
  · obtain ⟨k, rfl⟩ : ∃ k : Nat, e = k := ⟨e.toNat, by omega⟩
    have hplace : m * 2 ^ ((k : Int) + 1074).toNat = m * 2 ^ k * unit := by
      have htwos : 2 ^ (k + 1074) = 2 ^ k * unit := by rw [unit, ← Nat.pow_add]
      rw [show ((k : Int) + 1074).toNat = k + 1074 by omega, htwos, Nat.mul_assoc]
    rw [hplace, natAbs_signed, show (-(k : Int)).toNat = 0 by omega, Int.toNat_natCast, raise]
    have := @ofFloat?_integer negative m k
    split at this
    · exact this
    · exact Nat.mul_le_mul_right unit this

/-- **The decimal of a double tells its place.** A double without a decimal is past all words. -/
theorem ofFloat?_tells {x : Float} {place : Int} (hk : key? x = some place) (hv : Visible place) :
    match ofFloat? x with
    | some d => d.Tells place
    | none => 2 ^ 96 * unit ≤ place.natAbs := by
  cases h : shape x with
  | notANumber => rw [key?, h] at hk; cases hk
  | infinite negative =>
    rw [key?, h] at hk
    rw [ofFloat?, h]
    obtain rfl := Option.some.inj hk
    dsimp only
    rw [natAbs_signed, unit]
    exact @two_pow_mul_le 96 1074 2098 (by decide)
  | finite negative m e =>
    obtain ⟨hm, he⟩ := shape_bounds h
    obtain rfl := Option.some.inj ((key?_finite h).symm.trans hk)
    by_cases hzero : m = 0
    · subst hzero
      rw [ofFloat?, h]
      dsimp only
      rw [if_pos rfl]
      have := Decimal.tells_whole negative 0
      rwa [Nat.zero_mul] at this ⊢
    · rw [ofFloat?_finite h hzero]
      exact ofScaling?_tells hm he hzero hv

end Sift.Double.Fixed

namespace Sift

/-- **Decimals of 28 places are lawful.** -/
theorem Decimals.lawful_standard : Decimals.standard.Lawful where
  tells {x place d} hk hv h := by
    have h : Double.Fixed.ofFloat? x = some d := h
    have htells := Double.Fixed.ofFloat?_tells hk hv
    rwa [h] at htells
  past {x place} hk hv h := by
    have h : Double.Fixed.ofFloat? x = none := h
    have htells := Double.Fixed.ofFloat?_tells hk hv
    rwa [h] at htells

end Sift
