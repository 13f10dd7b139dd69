import Sift.Proofs.Text.Decoded

/-!
# The spellings of a text

RFC 8259 lets a string be written in many ways: most characters may stand as they are, eight have a
letter of their own, and every character may be given by its number in UTF-16, with digits of either
case. `Text.Spells body text` says that the body is one of these spellings of the text.

* `Spells.unescape`: whatever the spelling, reading it gives the text.
* `spells_escaped`: what a text is written as is one of its spellings.
-/

namespace Sift.Text

/-! ## 1. Spellings -/

/-- The character is the hexadecimal digit of the value, in lower case or upper case. -/
def HexDigit (n : Nat) (c : Char) : Prop :=
  "0123456789abcdef".toList[n]? = some c ∨ "0123456789ABCDEF".toList[n]? = some c

/-- Four digits are the code unit. -/
inductive CodeUnit : Nat → List Char → Prop
  | mk {n₁ n₂ n₃ n₄ : Nat} {c₁ c₂ c₃ c₄ : Char} (first : HexDigit n₁ c₁) (second : HexDigit n₂ c₂)
      (third : HexDigit n₃ c₃) (fourth : HexDigit n₄ c₄) :
      CodeUnit (n₁ * 0x1000 + n₂ * 0x100 + n₃ * 0x10 + n₄) [c₁, c₂, c₃, c₄]

/-- The letters that name a character after a backslash. -/
def letters : List (Char × Char) :=
  [('"', '"'), ('\\', '\\'), ('/', '/'), ('b', '\x08'), ('f', '\x0c'), ('n', '\n'), ('r', '\r'),
    ('t', '\t')]

/-- **The body of a string spells a text.** A character may stand raw if it is no quote, backslash
    or control character, by its letter, by its code unit, or by its two code units above U+FFFF. -/
inductive Spells : (body text : List Char) → Prop
  | nil : Spells [] []
  | raw {c : Char} {body text : List Char} (quote : c ≠ '"') (backslash : c ≠ '\\')
      (visible : 0x20 ≤ c.toNat) (more : Spells body text) : Spells (c :: body) (c :: text)
  | letter {letter c : Char} {body text : List Char} (names : (letter, c) ∈ letters)
      (more : Spells body text) : Spells ('\\' :: letter :: body) (c :: text)
  | unit {c : Char} {digits body text : List Char} (unit : CodeUnit c.toNat digits)
      (more : Spells body text) : Spells ('\\' :: 'u' :: (digits ++ body)) (c :: text)
  | pair {c : Char} {high low body text : List Char} (above : 0x10000 ≤ c.toNat)
      (first : CodeUnit (0xD800 + (c.toNat - 0x10000) / 0x400) high)
      (second : CodeUnit (0xDC00 + (c.toNat - 0x10000) % 0x400) low) (more : Spells body text) :
      Spells ('\\' :: 'u' :: (high ++ '\\' :: 'u' :: (low ++ body))) (c :: text)

/-! ## 2. Reading -/

variable {c : Char} {n : Nat} {digits body text rest : List Char}

theorem HexDigit.read (h : HexDigit n c) : hexDigit? c = some n := by
  have hlower : ∀ n : Fin 16, hexDigit? "0123456789abcdef".toList[n] = some n.val := by decide
  have hupper : ∀ n : Fin 16, hexDigit? "0123456789ABCDEF".toList[n] = some n.val := by decide
  rcases h with h | h
  · obtain ⟨hlt, rfl⟩ := List.getElem?_eq_some_iff.mp h
    exact hlower ⟨n, hlt⟩
  · obtain ⟨hlt, rfl⟩ := List.getElem?_eq_some_iff.mp h
    exact hupper ⟨n, hlt⟩

namespace Escape

theorem unit_cons (h : HexDigit n c) (k m : Nat) :
    unit (k + 1) m (c :: rest) = unit k (m * 16 + n) rest := by
  rw [unit, h.read]

/-- Four digits are read as their code unit. -/
theorem unit_of_codeUnit (h : CodeUnit n digits) : unit 4 0 (digits ++ rest) = (some n, rest) := by
  obtain ⟨first, second, third, fourth⟩ := h
  simp only [List.cons_append, List.nil_append]
  rw [unit_cons first, unit_cons second, unit_cons third, unit_cons fourth, unit]
  congr 2
  omega

/-- A character has no code units of its own between the surrogates. -/
theorem not_surrogate (c : Char) : ¬(0xD800 ≤ c.toNat ∧ c.toNat < 0xE000) := by
  have hmax : c.toNat < 0xD800 ∨ 0xDFFF < c.toNat ∧ c.toNat < 0x110000 := c.valid
  omega

theorem scalar?_toNat (c : Char) : scalar? c.toNat = some c := by
  have hvalid : c.toNat.isValidChar := c.valid
  rw [scalar?, if_pos hvalid, c.ofNat_toNat]

theorem afterU_unit (h : CodeUnit c.toNat digits) : afterU (digits ++ rest) = (some c, rest) := by
  have hhigh : isHigh c.toNat = false := by
    have := not_surrogate c
    simp only [isHigh, Bool.and_eq_false_iff, decide_eq_false_iff_not]
    omega
  rw [afterU, unit_of_codeUnit h]
  dsimp only
  rw [hhigh, if_neg Bool.false_ne_true, scalar?_toNat]

theorem low?_unit {low : Nat} (h : CodeUnit low digits) (hlow : isLow low = true) :
    low? ('\\' :: 'u' :: (digits ++ rest)) = some (low, rest) := by
  rw [low?, unit_of_codeUnit h]
  exact if_pos hlow

theorem afterU_surrogates {high low : Nat} {digits' : List Char} (first : CodeUnit high digits)
    (second : CodeUnit low digits') (hhigh : isHigh high = true) (hlow : isLow low = true) :
    afterU (digits ++ '\\' :: 'u' :: (digits' ++ rest)) = (scalar? (pair high low), rest) := by
  rw [afterU, unit_of_codeUnit first]
  dsimp only
  rw [hhigh, if_pos rfl, low?_unit second hlow]

/-- The first code unit of a character above U+FFFF opens a pair. -/
theorem isHigh_first (c : Char) : isHigh (0xD800 + (c.toNat - 0x10000) / 0x400) = true := by
  have hmax : c.toNat < 0xD800 ∨ 0xDFFF < c.toNat ∧ c.toNat < 0x110000 := c.valid
  rw [isHigh, Bool.and_eq_true, decide_eq_true_iff, decide_eq_true_iff]
  omega

/-- The second one closes it. -/
theorem isLow_second (n : Nat) : isLow (0xDC00 + n % 0x400) = true := by
  rw [isLow, Bool.and_eq_true, decide_eq_true_iff, decide_eq_true_iff]
  omega

/-- The code units of a character above U+FFFF are put together again. -/
theorem afterU_pair {high low : List Char} (above : 0x10000 ≤ c.toNat)
    (first : CodeUnit (0xD800 + (c.toNat - 0x10000) / 0x400) high)
    (second : CodeUnit (0xDC00 + (c.toNat - 0x10000) % 0x400) low) :
    afterU (high ++ '\\' :: 'u' :: (low ++ rest)) = (some c, rest) := by
  have hpair : pair (0xD800 + (c.toNat - 0x10000) / 0x400)
      (0xDC00 + (c.toNat - 0x10000) % 0x400) = c.toNat := by
    unfold pair
    omega
  rw [afterU_surrogates first second (isHigh_first c) (isLow_second _), hpair, scalar?_toNat]

theorem next?_raw (h : c ≠ '\\') : next? (c :: rest) = some (some c, rest) := by
  unfold next?
  split <;> simp_all

theorem next?_u : next? ('\\' :: 'u' :: rest) = some (afterU rest) := rfl

theorem next?_letter {letter : Char} (h : (letter, c) ∈ letters) :
    next? ('\\' :: letter :: rest) = some (some c, rest) := by
  simp only [letters, List.mem_cons, Prod.mk.injEq, List.not_mem_nil, or_false] at h
  rcases h with ⟨rfl, rfl⟩ | ⟨rfl, rfl⟩ | ⟨rfl, rfl⟩ | ⟨rfl, rfl⟩ | ⟨rfl, rfl⟩ | ⟨rfl, rfl⟩ |
    ⟨rfl, rfl⟩ | ⟨rfl, rfl⟩ <;> rfl

end Escape

open Escape

/-- **Reading a spelling of a text gives the text**, and every escape names a character. -/
theorem Spells.decode (h : Spells body text) : Escape.decode body = text.map some := by
  induction h with
  | nil => exact decode_of_none rfl
  | raw quote backslash visible more ih => rw [decode_of_next? (next?_raw backslash), ih]; rfl
  | letter names more ih => rw [decode_of_next? (next?_letter names), ih]; rfl
  | unit unit more ih =>
    rw [decode_of_next? (next?_u.trans (congrArg some (afterU_unit unit))), ih]
    rfl
  | pair above first second more ih =>
    rw [decode_of_next? (next?_u.trans (congrArg some (afterU_pair above first second))), ih]
    rfl

/-- **Unescaping undoes every spelling.** -/
theorem Spells.unescape (h : Spells body text) : Escape.unescape body = text := by
  rw [Escape.unescape, h.decode, List.map_map]
  exact List.map_id text

/-! ## 3. Writing -/

theorem hexDigit_spec (h : n < 16) : HexDigit n (hexDigit n) := by
  have hlower : ∀ n : Fin 16, "0123456789abcdef".toList[n.val]? = some (hexDigit n.val) := by decide
  exact .inl (hlower ⟨n, h⟩)

theorem codeUnit_hex4 (h : n < 0x10000) : CodeUnit n (hex4 n) := by
  have hsum : n / 4096 % 16 * 0x1000 + n / 256 % 16 * 0x100 + n / 16 % 16 * 0x10 + n % 16 = n := by
    omega
  have hunit := CodeUnit.mk (hexDigit_spec (Nat.mod_lt (n / 4096) (by decide)))
    (hexDigit_spec (Nat.mod_lt (n / 256) (by decide)))
    (hexDigit_spec (Nat.mod_lt (n / 16) (by decide))) (hexDigit_spec (Nat.mod_lt n (by decide)))
  rwa [hsum] at hunit

/-- One character is written as one of its spellings. -/
theorem spells_escapedChar (c : Char) (more : Spells body text) :
    Spells (escapedChar c ++ body) (c :: text) := by
  unfold escapedChar
  split
  · exact .letter (by decide) more
  · exact .letter (by decide) more
  · exact .letter (by decide) more
  · exact .letter (by decide) more
  · exact .letter (by decide) more
  · next quote backslash _ _ _ =>
    -- what has no letter is told by its number
    have of_toNat {n : Nat} (h : c.toNat = n) : c = Char.ofNat n := by rw [← h, c.ofNat_toNat]
    split
    · next h => exact .letter (by rw [of_toNat h]; decide) more
    · split
      · next h => exact .letter (by rw [of_toNat h]; decide) more
      · split
        · next h => exact .unit (codeUnit_hex4 (Nat.lt_trans h (by decide))) more
        · next h => exact .raw quote backslash (Nat.not_lt.mp h) more

/-- **A text is written as one of its spellings.** -/
theorem spells_escaped : ∀ s : List Char, Spells (escaped s) s
  | [] => .nil
  | c :: s => spells_escapedChar c (spells_escaped s)

end Sift.Text
