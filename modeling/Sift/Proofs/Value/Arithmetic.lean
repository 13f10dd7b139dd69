import Sift.Value.Arithmetic
import Sift.Proofs.Value.Integers
import Sift.Proofs.Value.Quotients

/-!
# Integers are computed exactly

`Operation.Exact` is what an operation on integers comes to, told on the integers alone, and
`Narrowed` the value that an integer becomes. `integers_computed_exactly`: of two values that are
integers of words (`Word`), every operation gives the exact result so narrowed, and a finite double
where this is past all words or no integer. A result that 128 bits do not hold is the product of two
words, and that is past all words as well (`onNumbers_exact`).
-/

namespace Sift.Value

/-! ## 1. Results -/

/-- **The value that an integer becomes.** Of the words that hold it the signed one is taken, or the
    unsigned one if that is asked for; past all words it is a finite double. -/
def Narrowed (unsigned : Bool) (z : Int) (v : Value) : Prop :=
  if unsigned = true ∧ 0 ≤ z ∧ z < 2 ^ 64 then ∃ n : UInt64, v = .uint n ∧ n.toNat = z
  else if -2 ^ 63 ≤ z ∧ z < 2 ^ 63 then ∃ n : Int64, v = .int n ∧ n.toInt = z
  else if 0 ≤ z ∧ z < 2 ^ 64 then ∃ n : UInt64, v = .uint n ∧ n.toNat = z
  else ∃ x, v = .float x ∧ Double.isFinite x = true

/-- **The exact result** of an operation on two integers, where it is an integer. -/
inductive Operation.Exact : (op : Operation) → (m n result : Int) → Prop
  | add {m n : Int} : Exact .add m n (m + n)
  | sub {m n : Int} : Exact .sub m n (m - n)
  | mul {m n : Int} : Exact .mul m n (m * n)
  | div {m n z : Int} (nonzero : n ≠ 0) (even : m = n * z) : Exact .div m n z
  | rem {m n : Int} (nonzero : n ≠ 0) : Exact .rem m n (m.tmod n)

variable {u w : Bool} {m n z : Int} {a b : Number}

theorem ofFloat_finite {x : Float} (h : Double.isFinite x = true) : ofFloat x = .float x :=
  if_pos h

/-- Past all words there are only doubles. -/
theorem narrowed_float {x : Float} (unsigned : Bool) (hz : z < -2 ^ 63 ∨ 2 ^ 64 ≤ z)
    (hx : Double.isFinite x = true) : Narrowed unsigned z (.float x) := by
  rw [Narrowed, if_neg (by omega), if_neg (by omega), if_neg (by omega)]
  exact ⟨x, rfl, hx⟩

theorem uint_toNat (h : 0 ≤ z ∧ z < 2 ^ 64) : ((UInt64.ofNat z.toNat).toNat : Int) = z := by
  rw [UInt64.toNat_ofNat', Nat.mod_eq_of_lt (by omega), Int.toNat_of_nonneg h.1]

/-- **An integer of 128 bits** becomes the value that it should. -/
theorem narrowed_ofInteger (unsigned : Bool) (h : z.natAbs ≤ 2 ^ 127) :
    Narrowed unsigned z (ofInteger unsigned z) := by
  rw [Narrowed, ofInteger]
  simp only [Bool.and_eq_true, Numeral.fitsUnsigned_iff, Numeral.fitsSigned_iff]
  split
  · next hu => exact ⟨_, rfl, uint_toNat hu.2⟩
  · split
    · next hs => exact ⟨_, rfl, Int64.toInt_ofInt_of_le hs.1 hs.2⟩
    · split
      · next hu => exact ⟨_, rfl, uint_toNat hu⟩
      · have hfinite := Double.isFinite_ofInt h (by decide) (by decide)
        exact ⟨_, ofFloat_finite hfinite, hfinite⟩

/-! ## 2. Numbers -/

theorem natAbs_word (h : a.Word u m) : m.natAbs ≤ 2 ^ 64 := by
  cases h with
  | int n => exact natAbs_toInt_le n
  | uint n => exact natAbs_toNat_le n

/-- What 128 bits hold. -/
theorem fitsWide_iff : fitsWide z = true ↔ -2 ^ 127 ≤ z ∧ z < 2 ^ 127 := by
  have hbound : (Nat.pow 2 127 : Int) = 2 ^ 127 := rfl
  rw [fitsWide, Bool.and_eq_true, decide_eq_true_iff, decide_eq_true_iff, hbound]

namespace Operation

variable {op : Operation}

/-- An operation on words, told by their values. -/
theorem onNumbers_eq (ha : a.Word u m) (hb : b.Word w n) : op.onNumbers a b =
    if op.divides && n == 0 then .invalid
    else
      match op.onIntegers? m n with
      | some z =>
        if fitsWide z then ofInteger (u && w) z else op.onFloats (Float.ofInt m) (Float.ofInt n)
      | none => op.onFloats (Float.ofInt m) (Float.ofInt n) := by
  cases ha <;> cases hb <;> rfl

/-- The exact result is what the operation on integers gives. -/
theorem Exact.onIntegers? (h : op.Exact m n z) :
    (op.divides && n == 0) = false ∧ op.onIntegers? m n = some z := by
  cases h with
  | add | sub | mul => exact ⟨rfl, rfl⟩
  | div nonzero even =>
    subst even
    refine ⟨beq_false_of_ne nonzero, ?_⟩
    rw [Operation.onIntegers?, Int.mul_tmod_right, if_pos rfl, Int.mul_tdiv_cancel_left _ nonzero]
  | rem nonzero => exact ⟨beq_false_of_ne nonzero, rfl⟩

/-- All results but products have no more than 65 bits. -/
theorem Exact.natAbs_le (h : op.Exact m n z) (hop : op ≠ .mul) (hm : m.natAbs ≤ 2 ^ 64)
    (hn : n.natAbs ≤ 2 ^ 64) : z.natAbs ≤ 2 ^ 65 := by
  cases h with
  | add | sub => omega
  | mul => exact absurd rfl hop
  | div nonzero even =>
    have hle : z.natAbs ≤ m.natAbs := by
      rw [even, Int.natAbs_mul]
      exact Nat.le_mul_of_pos_left _ (Int.natAbs_pos.mpr nonzero)
    omega
  | rem nonzero =>
    have hle : (m.tmod n).natAbs ≤ m.natAbs := by
      rw [Int.natAbs_tmod]
      exact Nat.mod_le _ _
    omega

/-- **Two words and an exact result.** -/
theorem onNumbers_exact (ha : a.Word u m) (hb : b.Word w n) (h : op.Exact m n z) :
    Narrowed (u && w) z (op.onNumbers a b) := by
  have hm := natAbs_word ha
  have hn := natAbs_word hb
  obtain ⟨hdivides, hresult⟩ := h.onIntegers?
  rw [onNumbers_eq ha hb, hdivides, if_neg Bool.false_ne_true, hresult]
  dsimp only
  split
  · next hwide =>
    have := fitsWide_iff.mp hwide
    exact narrowed_ofInteger _ (by omega)
  · next hwide =>
    -- only a product is so large, and then no word holds it
    have hlarge : ¬(-2 ^ 127 ≤ z ∧ z < 2 ^ 127) := fun hz => hwide (fitsWide_iff.mpr hz)
    obtain rfl : op = .mul := by
      by_contra hop
      have := h.natAbs_le hop hm hn
      omega
    have hfinite := Double.isFinite_mul hm hn
    have hfloat : Operation.mul.onFloats (Float.ofInt m) (Float.ofInt n) =
        .float (Float.ofInt m * Float.ofInt n) := ofFloat_finite hfinite
    rw [hfloat]
    exact narrowed_float _ (by omega) hfinite

/-- **A division that does not come out even.** -/
theorem onNumbers_uneven (ha : a.Word u m) (hb : b.Word w n) (h0 : n ≠ 0) (h : ¬n ∣ m) :
    ∃ x, Operation.div.onNumbers a b = .float x ∧ Double.isFinite x = true := by
  have hfinite := Double.isFinite_div (natAbs_word ha) (natAbs_word hb) h0
  have hzero := Double.isZero_ofInt h0 (natAbs_word hb)
  have huneven : ¬m.tmod n = 0 := fun h' => h (Int.dvd_of_tmod_eq_zero h')
  refine ⟨_, ?_, hfinite⟩
  rw [onNumbers_eq ha hb, beq_false_of_ne h0, Bool.and_false, if_neg Bool.false_ne_true,
    Operation.onIntegers?, if_neg huneven]
  dsimp only
  rw [onFloats, hzero, Bool.and_false, if_neg Bool.false_ne_true]
  exact ofFloat_finite hfinite

/-- **Nothing is divided by zero.** -/
theorem onNumbers_zero (ha : a.Word u m) (hb : b.Word w 0) (hop : op.divides = true) :
    op.onNumbers a b = .invalid := by
  rw [onNumbers_eq ha hb, hop]
  rfl

end Operation

/-! ## 3. Values -/

/-- **Integers are computed exactly.** Operations on values that are integers of words come to the
    exact result, narrowed as the sorts of the words say. A division that does not come out even is
    a finite double, and one by zero is none. -/
theorem integers_computed_exactly {x y : Value} (hx : x.Word u m) (hy : y.Word w n) :
    (∀ op z, Operation.Exact op m n z → Narrowed (u && w) z (op.apply x y)) ∧
      (n ≠ 0 → ¬n ∣ m → ∃ q, Operation.div.apply x y = .float q ∧ Double.isFinite q = true) ∧
      (n = 0 → Operation.div.apply x y = .invalid ∧ Operation.rem.apply x y = .invalid) ∧
      Narrowed false (-m) x.neg := by
  obtain ⟨a, ha, hwa⟩ := hx.number?
  obtain ⟨b, hb, hwb⟩ := hy.number?
  have happly : ∀ op : Operation, op.apply x y = op.onNumbers a b := fun op => by
    rw [Operation.apply, ha, hb]
  refine ⟨fun op z h => ?_, fun h0 h => ?_, ?_, ?_⟩
  · rw [happly]
    exact Operation.onNumbers_exact hwa hwb h
  · rw [happly]
    exact Operation.onNumbers_uneven hwa hwb h0 h
  · rintro rfl
    rw [happly, happly]
    exact ⟨Operation.onNumbers_zero hwa hwb rfl, Operation.onNumbers_zero hwa hwb rfl⟩
  · have hm := natAbs_word hwa
    rw [neg, ha]
    cases hwa with
    | int n => exact narrowed_ofInteger false (by omega)
    | uint n => exact narrowed_ofInteger false (by omega)

/-- The digits of `2^63`, which no signed word is. -/
def pastSigned : Bytes :=
  ['9', '2', '2', '3', '3', '7', '2', '0', '3', '6', '8', '5', '4', '7', '7', '5', '8', '0',
    '8'].map Char.toUInt8

/-- A product that no word holds, a remainder, a quotient that is no integer, and the least word. -/
theorem integers_computed_exactly_pastSigned :
    (∃ q, Operation.mul.apply (.uintText pastSigned) (.int (-3)) = .float q ∧
      Double.isFinite q = true) ∧
      (∃ n : Int64, Operation.rem.apply (.uintText pastSigned) (.int (-3)) = .int n ∧
        n.toInt = 2) ∧
      (∃ q, Operation.div.apply (.uintText pastSigned) (.int (-3)) = .float q ∧
        Double.isFinite q = true) ∧
      ∃ n : Int64, neg (.uintText pastSigned) = .int n ∧ n.toInt = -2 ^ 63 := by
  have hdigits : Grammar.Whole pastSigned :=
    .digits (by decide) (by unfold Grammar.Digits; decide +kernel)
  have hvalue : Grammar.decimal pastSigned = 2 ^ 63 := by decide
  have hword := Word.uintText hdigits (by rw [hvalue]; decide)
  rw [hvalue] at hword
  obtain ⟨hexact, huneven, -, hneg⟩ := integers_computed_exactly hword (.int (-3))
  exact ⟨hexact .mul _ .mul, hexact .rem _ (.rem (by decide)), huneven (by decide) (by decide),
    hneg⟩

end Sift.Value
