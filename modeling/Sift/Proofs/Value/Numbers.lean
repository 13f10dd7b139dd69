import Sift.Value.Compare
import Sift.Proofs.Grammar.Lexemes
import Sift.Proofs.Value.Words

/-!
# Numbers by their value

Numbers of different representations are compared on different ways, but to one end: each has a
place, its value in units of `2^-1074`, and the places decide (`compareNumbers_eq`). This needs that
doubles are visible and decimals lawful, as a double meets an integer by way of a decimal.

The text of a number of a document is always read as some number (`number?_isSome`).
-/

namespace Sift

open Grammar

/-! ## 1. Texts of numbers -/

namespace Numeral

variable {digits rest : Bytes}

theorem digit?_isSome_iff {b : UInt8} : (digit? b).isSome ↔ 0x30 ≤ b ∧ b ≤ 0x39 := by
  rw [digit?, ← Bool.and_eq_true_iff.trans (and_congr decide_eq_true_iff decide_eq_true_iff)]
  split <;> simp_all

theorem digitsFrom?_isSome (h : Digits digits) : ∀ n, (digitsFrom? n digits).isSome := by
  induction digits with
  | nil => exact fun _ => rfl
  | cons b more ih =>
    intro n
    obtain ⟨d, hd⟩ := Option.isSome_iff_exists.mp
      (digit?_isSome_iff.mpr (h b List.mem_cons_self))
    rw [digitsFrom?, hd]
    exact ih (fun b hb => h b (List.mem_cons_of_mem _ hb)) _

/-- What does not begin with a digit. -/
def Stops (rest : Bytes) : Prop :=
  rest = [] ∨ ∃ b more, rest = b :: more ∧ (digit? b).isSome = false

/-- Digits are read up to what is no digit. -/
theorem leading_append (h : Digits digits) (hr : Stops rest) :
    leading (digits ++ rest) = digits ∧ afterDigits (digits ++ rest) = rest := by
  have hd : ∀ b ∈ digits, (digit? b).isSome = true := fun b hb => digit?_isSome_iff.mpr (h b hb)
  have hstop : leading rest = [] ∧ afterDigits rest = rest := by
    rcases hr with rfl | ⟨b, more, rfl, hb⟩
    · exact ⟨rfl, rfl⟩
    · have hb : ¬(digit? b).isSome = true := Bool.eq_false_iff.mp hb
      exact ⟨List.takeWhile_cons_of_neg hb, List.dropWhile_cons_of_neg hb⟩
  constructor
  · rw [leading, List.takeWhile_append_of_pos hd, ← leading, hstop.1, List.append_nil]
  · rw [afterDigits, List.dropWhile_append_of_pos hd, ← afterDigits, hstop.2]

theorem digits_of_whole {whole : Bytes} (h : Whole whole) : whole ≠ [] ∧ Digits whole := by
  cases h with
  | zero => exact ⟨List.cons_ne_nil _ _, fun b hb => by cases List.mem_singleton.mp hb; decide⟩
  | digits first more => 
    refine ⟨List.cons_ne_nil _ _, fun b hb => ?_⟩
    rcases List.mem_cons.mp hb with rfl | hb
    · exact ⟨UInt8.le_trans (by decide) first.1, first.2⟩
    · exact more b hb

/-- A sign is taken off, and where there is none nothing. -/
theorem sign_append {sgn : Bytes} (rest : Bytes) (hsome : digits ≠ []) (h : Digits digits)
    (hs : sgn = [] ∨ sgn = ['+'.toUInt8] ∨ sgn = ['-'.toUInt8]) :
    ∃ negative, sign (sgn ++ (digits ++ rest)) = (negative, digits ++ rest) := by
  rcases hs with rfl | rfl | rfl
  · obtain ⟨b, more, rfl⟩ := List.exists_cons_of_ne_nil hsome
    have hb := h b List.mem_cons_self
    refine ⟨false, ?_⟩
    rw [List.nil_append, List.cons_append, sign, if_neg, if_neg]
    · rintro rfl
      exact absurd hb (by decide)
    · rintro rfl
      exact absurd hb (by decide)
  · exact ⟨false, rfl⟩
  · exact ⟨true, rfl⟩

/-- An exponent is read, and so is none. -/
theorem exponent?_isSome {power : Bytes} (h : power = [] ∨ Exponent power) :
    (exponent? power).isSome := by
  rcases h with rfl | @⟨mark, sgn, digits, either, signed, hsome, all⟩
  · rfl
  · obtain ⟨negative, hsign⟩ := sign_append [] hsome all signed
    rw [List.append_nil] at hsign
    obtain ⟨n, hn⟩ := Option.isSome_iff_exists.mp (digitsFrom?_isSome all 0)
    have hdigits : digits? digits = some n := by
      rw [digits?, if_neg (by simpa using hsome), hn]
    rw [exponent?, if_pos either, hsign]
    dsimp only
    rw [hdigits]
    rfl

theorem stops_power {power : Bytes} (h : power = [] ∨ Exponent power) : Stops power := by
  rcases h with rfl | @⟨mark, _, _, either, -, -, -⟩
  · exact .inl rfl
  · exact .inr ⟨mark, _, rfl, by rcases either with rfl | rfl <;> rfl⟩

/-- **The digits of a number are read**, with a fraction or an exponent or not. -/
theorem magnitude?_isSome {whole part power : Bytes} (hw : Whole whole)
    (hf : part = [] ∨ Fraction part) (he : power = [] ∨ Exponent power) :
    (magnitude? (whole ++ (part ++ power))).isSome := by
  obtain ⟨hne, hdigits⟩ := digits_of_whole hw
  have hstops : Stops (part ++ power) := by
    rcases hf with rfl | ⟨_, _⟩
    · exact stops_power he
    · exact .inr ⟨_, _, rfl, rfl⟩
  obtain ⟨hlead, hafter⟩ := leading_append hdigits hstops
  have hempty : whole.isEmpty = false := by simpa using hne
  rw [magnitude?, hlead, hafter, hempty]
  dsimp only
  rw [Bool.false_and, if_neg Bool.false_ne_true, Option.isSome_map]
  rcases hf with rfl | @⟨digits, _, all⟩
  · rcases he with rfl | he
    · rfl
    · have hpower := exponent?_isSome (.inr he)
      obtain @⟨mark, _, _, either, -, -, -⟩ := he
      rw [List.nil_append]
      dsimp only
      rwa [if_neg (by rcases either with rfl | rfl <;> decide)]
  · obtain ⟨-, hafter⟩ := leading_append all (stops_power he)
    rw [List.cons_append]
    dsimp only
    rw [if_pos rfl, hafter]
    exact exponent?_isSome he

theorem parts_of_number {kind : TokenKind} {text : Bytes} (h : Grammar.Number kind text) :
    ∃ sgn whole part power, text = sgn ++ (whole ++ (part ++ power)) ∧ Minus sgn ∧ Whole whole ∧
      (part = [] ∨ Fraction part) ∧ (power = [] ∨ Exponent power) := by
  cases h with
  | integer minus digits =>
    exact ⟨_, _, [], [], by simp, minus, digits, .inl rfl, .inl rfl⟩
  | fraction minus digits fraction =>
    exact ⟨_, _, _, [], by simp, minus, digits, .inr fraction, .inl rfl⟩
  | exponent minus digits exponent =>
    exact ⟨_, _, [], _, by simp, minus, digits, .inl rfl, .inr exponent⟩
  | both minus digits fraction exponent =>
    exact ⟨_, _, _, _, rfl, minus, digits, .inr fraction, .inr exponent⟩

/-- **The text of a number is a double.** -/
theorem float?_isSome {kind : TokenKind} {text : Bytes} (h : Grammar.Number kind text) :
    (float? text).isSome := by
  obtain ⟨sgn, whole, part, power, rfl, minus, hw, hf, he⟩ := parts_of_number h
  obtain ⟨hne, hdigits⟩ := digits_of_whole hw
  have hsgn : sgn = [] ∨ sgn = ['+'.toUInt8] ∨ sgn = ['-'.toUInt8] := by
    cases minus with
    | none => exact .inl rfl
    | some => exact .inr (.inr rfl)
  obtain ⟨negative, hsign⟩ := sign_append (part ++ power) hne hdigits hsgn
  rw [float?, hsign]
  dsimp only
  rw [Option.isSome_map]
  split
  · rfl
  · split
    · rfl
    · exact magnitude?_isSome hw hf he

end Numeral

/-! ## 2. Places -/

open Double (unit unit_pos Visible)

/-- The place of a number: its value in units of `2^-1074`. What is no number has none. -/
def Number.place? : Number → Option Int
  | .int n => some (n.toInt * unit)
  | .uint n => some (n.toNat * unit)
  | .float x => Double.key? x

/-- A number that has a place, which is zero or not too near to it. -/
def Number.Visible (n : Number) : Prop :=
  ∃ place, n.place? = some place ∧ Double.Visible place

namespace Value

variable {D : Decimals} {m n : Number} {j k : Int}

/-- **A double and an integer** of 64 bits compare as their places do. -/
theorem compareFloatInt_eq (hD : D.Lawful) {x : Float} {n : Int} (hk : Double.key? x = some k)
    (hv : Visible k) (hn : n.natAbs ≤ 2 ^ 64) :
    compareFloatInt D x n = Ord.compare k (n * unit) := by
  rw [compareFloatInt]
  split
  · next d hd => exact hD.tells hk hv hd n hn
  · next hd =>
    have hfar := hD.past hk hv hd
    obtain ⟨place, hplace, hlt⟩ := Double.key?_ofInt hn
    -- the double is past both the integer and the double that stands for the integer
    have hword : (n * unit).natAbs < k.natAbs := by
      rw [Int.natAbs_mul, Int.natAbs_natCast]
      have := Nat.mul_le_mul_right unit hn
      have := unit_pos
      omega
    have hpast : place.natAbs < k.natAbs := by
      have := unit_pos
      omega
    obtain ⟨negative, hsigned⟩ : ∃ negative, k = Double.signed negative k.natAbs := by
      rcases Int.natAbs_eq k with h | h
      · exact ⟨false, h⟩
      · exact ⟨true, h⟩
    rw [Double.compare?, hk, hplace]
    show Ord.compare k place = Ord.compare k (n * unit)
    rw [hsigned, Double.compare_of_natAbs_lt hpast, Double.compare_of_natAbs_lt hword]

theorem natAbs_toInt_le (n : Int64) : n.toInt.natAbs ≤ 2 ^ 64 := by
  have := n.toInt_lt
  have := n.le_toInt
  omega

theorem natAbs_toNat_le (n : UInt64) : (n.toNat : Int).natAbs ≤ 2 ^ 64 := by
  have := n.toNat_lt
  omega

/-- **Numbers compare by their value**, of whatever representation. -/
theorem compareNumbers_eq (hD : D.Lawful) (hm : m.place? = some j) (hn : n.place? = some k)
    (hj : Visible j) (hk : Visible k) : compareNumbers D m n = Ord.compare j k := by
  cases m with
  | int m =>
    obtain rfl := Option.some.inj hm
    cases n with
    | int n =>
      obtain rfl := Option.some.inj hn
      exact (Double.compare_mul_right unit_pos).symm
    | uint n =>
      obtain rfl := Option.some.inj hn
      exact (Double.compare_mul_right unit_pos).symm
    | float y =>
      rw [compareNumbers, compareFloatInt_eq hD hn hk (natAbs_toInt_le m)]
      exact Std.OrientedOrd.eq_swap.symm
  | uint m =>
    obtain rfl := Option.some.inj hm
    cases n with
    | int n =>
      obtain rfl := Option.some.inj hn
      exact (Double.compare_mul_right unit_pos).symm
    | uint n =>
      obtain rfl := Option.some.inj hn
      rw [Double.compare_mul_right unit_pos]
      simp only [compareNumbers, Ord.compare, compareOfLessAndEq, Int.ofNat_lt, Int.natCast_inj]
    | float y =>
      rw [compareNumbers, compareFloatInt_eq hD hn hk (natAbs_toNat_le m)]
      exact Std.OrientedOrd.eq_swap.symm
  | float x => cases n with
    | int n =>
      obtain rfl := Option.some.inj hn
      exact compareFloatInt_eq hD hm hj (natAbs_toInt_le n)
    | uint n =>
      obtain rfl := Option.some.inj hn
      exact compareFloatInt_eq hD hm hj (natAbs_toNat_le n)
    | float y =>
      have hm : Double.key? x = some j := hm
      have hn : Double.key? y = some k := hn
      rw [compareNumbers, Double.compare?, hm, hn]
      rfl

/-! ## 3. Any numbers -/

theorem compare?_swap (x y : Float) :
    Double.compare? y x = (Double.compare? x y).map Ordering.swap := by
  rw [Double.compare?, Double.compare?]
  cases Double.key? x <;> cases Double.key? y
  · rfl
  · rfl
  · rfl
  · exact congrArg some Std.OrientedOrd.eq_swap

theorem getD_swap (o : Option Ordering) : (o.map Ordering.swap).getD .eq = (o.getD .eq).swap := by
  cases o <;> rfl

/-- Numbers compared the other way round. -/
theorem compareNumbers_swap (m n : Number) :
    compareNumbers D n m = (compareNumbers D m n).swap := by
  cases m <;> cases n <;> simp only [compareNumbers, Ordering.swap_swap] <;> first
    | exact Std.OrientedOrd.eq_swap
    | rw [compare?_swap, getD_swap]

/-- A number and itself. What is no number counts as equal to itself. -/
theorem compareNumbers_self (n : Number) : compareNumbers D n n = .eq := by
  cases n with
  | int n => exact Std.ReflOrd.compare_self
  | uint n => exact Std.ReflOrd.compare_self
  | float x =>
    rw [compareNumbers, Double.compare?]
    cases Double.key? x with
    | none => rfl
    | some k => exact Std.ReflOrd.compare_self

/-! ## 4. Values that are numbers -/

/-- **The text of a number is a number.** -/
theorem number?_isSome {kind : TokenKind} {text : Bytes} (h : Grammar.Number kind text) :
    (intText text).number?.isSome ∧ (uintText text).number?.isSome ∧
      (floatText text).number?.isSome := by
  have hfloat := Numeral.float?_isSome h
  refine ⟨?_, ?_, ?_⟩
  · rw [number?]
    split
    · rfl
    · rwa [Option.isSome_map]
  · rw [number?]
    split
    · rfl
    · rwa [Option.isSome_map]
  · rwa [number?, Option.isSome_map]

end Value

end Sift
