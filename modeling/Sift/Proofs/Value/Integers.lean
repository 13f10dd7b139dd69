import Sift.Proofs.Text.Utf8
import Sift.Proofs.Value.Numbers
import Mathlib

/-!
# Integers by their value

What an integer of a document is worth is told by its digits (`Grammar.Integer`), and what fits a
word is read so (`Word.number?`). A value that is an integer of a word is one of four: a word of
either sort, or the text of one (`Value.Word`).
-/

namespace Sift

open Grammar

/-! ## 1. Digits -/

namespace Grammar

/-- The number that digits spell. -/
def decimal (digits : Bytes) : Nat :=
  Nat.ofDigitChars 10 (digits.map fun b => Char.ofNat b.toNat) 0

/-- **An integer as text**: digits, perhaps after a minus. -/
inductive Integer : Int → Bytes → Prop
  | natural {whole : Bytes} (digits : Whole whole) : Integer (decimal whole) whole
  | negated {whole : Bytes} (digits : Whole whole) :
      Integer (-decimal whole) ('-'.toUInt8 :: whole)

/-- The numbers without a fraction or an exponent are the integers. -/
theorem number_integer_iff {text : Bytes} :
    Grammar.Number .integer text ↔ ∃ n, Integer n text := by
  constructor
  · rintro ⟨minus, digits⟩
    cases minus with
    | none => exact ⟨_, .natural digits⟩
    | some => exact ⟨_, .negated digits⟩
  · rintro ⟨n, h⟩
    cases h with
    | natural digits => exact .integer .none digits
    | negated digits => exact .integer .some digits

end Grammar

namespace Numeral

variable {digits whole text : Bytes} {n : Int}

theorem digit?_of_digit {b : UInt8} (h : 0x30 ≤ b ∧ b ≤ 0x39) :
    digit? b = some ((Char.ofNat b.toNat).toNat - '0'.toNat) := by
  have hb : b.toNat < 256 := b.toNat_lt
  rw [digit?, if_pos (by simp [h.1, h.2]), Utf8.toNat_ofNat_of_valid (.inl (by omega))]
  rfl

/-- Digits are read as the number that they spell. -/
theorem digitsFrom?_eq (h : Digits digits) : ∀ n, digitsFrom? n digits =
    some (Nat.ofDigitChars 10 (digits.map fun b => Char.ofNat b.toNat) n) := by
  induction digits with
  | nil => exact fun n => by rw [List.map_nil, Nat.ofDigitChars_nil]; rfl
  | cons b more ih =>
    intro n
    rw [digitsFrom?, digit?_of_digit (h b List.mem_cons_self)]
    dsimp only
    rw [ih fun b hb => h b (List.mem_cons_of_mem _ hb), List.map_cons, Nat.ofDigitChars_cons,
      Nat.mul_comm]

theorem digits?_whole (h : Whole whole) : digits? whole = some (decimal whole) := by
  obtain ⟨hne, hdigits⟩ := digits_of_whole h
  rw [digits?, if_neg (by simpa using hne), digitsFrom?_eq hdigits]
  rfl

/-- Digits have no sign. -/
theorem sign_whole (h : Whole whole) : sign whole = (false, whole) := by
  obtain ⟨hne, hdigits⟩ := digits_of_whole h
  obtain ⟨b, more, rfl⟩ := List.exists_cons_of_ne_nil hne
  have hb := hdigits b List.mem_cons_self
  rw [sign, if_neg, if_neg]
  · rintro rfl
    exact absurd hb (by decide)
  · rintro rfl
    exact absurd hb (by decide)

theorem fitsSigned_iff : fitsSigned n = true ↔ -2 ^ 63 ≤ n ∧ n < 2 ^ 63 := by
  have hmin : Int64.minValue.toInt = -2 ^ 63 := rfl
  have hmax : Int64.maxValue.toInt = 2 ^ 63 - 1 := rfl
  rw [fitsSigned, Bool.and_eq_true, decide_eq_true_iff, decide_eq_true_iff, hmin, hmax]
  omega

theorem fitsUnsigned_iff : fitsUnsigned n = true ↔ 0 ≤ n ∧ n < 2 ^ 64 := by
  have hsize : (UInt64.size : Int) = 2 ^ 64 := rfl
  rw [fitsUnsigned, Bool.and_eq_true, decide_eq_true_iff, decide_eq_true_iff, hsize]

/-- **The text of a signed word** is read as its value. -/
theorem int64?_integer (h : Integer n text) (hfits : -2 ^ 63 ≤ n ∧ n < 2 ^ 63) :
    int64? text = some (Int64.ofInt n) := by
  cases h with
  | natural digits =>
    rw [int64?, sign_whole digits]
    dsimp only
    rw [digits?_whole digits]
    exact if_pos (fitsSigned_iff.mpr hfits)
  | @negated whole digits =>
    rw [int64?, show sign ('-'.toUInt8 :: whole) = (true, whole) from rfl]
    dsimp only
    rw [digits?_whole digits]
    exact if_pos (fitsSigned_iff.mpr hfits)

/-- **The text of an unsigned word** is read as its value. -/
theorem uint64?_whole (h : Whole whole) (hfits : decimal whole < 2 ^ 64) :
    uint64? whole = some (UInt64.ofNat (decimal whole)) := by
  have hfits : fitsUnsigned (decimal whole) = true := fitsUnsigned_iff.mpr (by omega)
  have hword : (!false && fitsUnsigned (decimal whole)) = true := by rw [hfits]; rfl
  rw [uint64?, sign_whole h]
  dsimp only
  rw [digits?_whole h, Option.bind_eq_bind, Option.bind_some, if_pos hword]

end Numeral

/-! ## 2. Values -/

/-- **A number that is a word**, whether the word is unsigned, and its value. -/
inductive Number.Word : (unsigned : Bool) → Int → Number → Prop
  | int (n : Int64) : Word false n.toInt (.int n)
  | uint (n : UInt64) : Word true n.toNat (.uint n)

namespace Value

/-- **A value that is an integer of a word**: a word, or the text of one. -/
inductive Word : (unsigned : Bool) → Int → Value → Prop
  | int (n : Int64) : Word false n.toInt (.int n)
  | uint (n : UInt64) : Word true n.toNat (.uint n)
  | intText {n : Int} {text : Bytes} (spelled : Integer n text)
      (fits : -2 ^ 63 ≤ n ∧ n < 2 ^ 63) : Word false n (.intText text)
  | uintText {whole : Bytes} (digits : Whole whole) (fits : decimal whole < 2 ^ 64) :
      Word true (decimal whole) (.uintText whole)

variable {unsigned : Bool} {n : Int} {v : Value}

theorem Word.number? (h : v.Word unsigned n) :
    ∃ m, v.number? = some m ∧ m.Word unsigned n := by
  cases h with
  | int n => exact ⟨_, rfl, .int n⟩
  | uint n => exact ⟨_, rfl, .uint n⟩
  | intText spelled fits =>
    refine ⟨.int (Int64.ofInt n), by rw [Value.number?, Numeral.int64?_integer spelled fits], ?_⟩
    have hword := Number.Word.int (Int64.ofInt n)
    rwa [Int64.toInt_ofInt_of_le fits.1 fits.2] at hword
  | @uintText whole digits fits =>
    refine ⟨.uint (UInt64.ofNat (decimal whole)),
      by rw [Value.number?, Numeral.uint64?_whole digits fits], ?_⟩
    have hword := Number.Word.uint (UInt64.ofNat (decimal whole))
    rwa [UInt64.toNat_ofNat', Nat.mod_eq_of_lt fits] at hword

/-- **The integers of documents are words**, if they fit one. -/
theorem word_ofToken {t : Token} (hk : t.kind = .integer) (h : Integer n t.text)
    (hfits : -2 ^ 63 ≤ n ∧ n < 2 ^ 64) : ∃ unsigned, (ofToken t).Word unsigned n := by
  generalize htext : t.text = text at h
  rw [ofToken, hk]
  dsimp only
  rw [htext]
  cases h with
  | @natural whole digits =>
    refine ⟨true, ?_⟩
    rw [if_neg]
    · exact .uintText digits (by omega)
    · intro hhead
      have hsign := Numeral.sign_whole digits
      obtain ⟨more, rfl⟩ := List.head?_eq_some_iff.mp hhead
      cases hsign
  | negated digits =>
    refine ⟨false, ?_⟩
    rw [if_pos List.head?_cons]
    exact .intText (.negated digits) (by omega)

end Value

end Sift
