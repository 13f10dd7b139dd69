import Sift.Proofs.Document.Layout

/-!
# The lexemes of JSON

What RFC 8259 makes of bytes as gaps, words, numbers and strings, told by itself and with nothing
of how lexemes are read. The reader takes each as the grammar does (`Lexeme.lexeme_eq`), if what
comes after it may: a number ends before a gap, a comma or a closing bracket, or with the text.
-/

namespace Sift.Grammar

/-! ## 1. Bytes -/

/-- Nothing but spaces, tabs, line feeds and carriage returns. -/
def Gap (text : Bytes) : Prop := ∀ b ∈ text, b = 0x20 ∨ b = 0x09 ∨ b = 0x0A ∨ b = 0x0D

theorem gap_nil : Gap [] := by simp [Gap]

/-- Nothing but decimal digits. -/
def Digits (text : Bytes) : Prop := ∀ b ∈ text, 0x30 ≤ b ∧ b ≤ 0x39

/-- A hexadecimal digit. -/
def HexDigit (b : UInt8) : Prop :=
  (0x30 ≤ b ∧ b ≤ 0x39) ∨ (0x41 ≤ b ∧ b ≤ 0x46) ∨ (0x61 ≤ b ∧ b ≤ 0x66)

/-! ## 2. Numbers -/

/-- A sign, if there is one. -/
inductive Minus : Bytes → Prop
  | none : Minus []
  | some : Minus ['-'.toUInt8]

/-- The digits before the point: zero, or others that do not begin with it. -/
inductive Whole : Bytes → Prop
  | zero : Whole ['0'.toUInt8]
  | digits {b : UInt8} {more : Bytes} (first : 0x31 ≤ b ∧ b ≤ 0x39) (more_digits : Digits more) :
      Whole (b :: more)

/-- A point and digits. -/
inductive Fraction : Bytes → Prop
  | mk {digits : Bytes} (some : digits ≠ []) (all : Digits digits) :
      Fraction ('.'.toUInt8 :: digits)

/-- An `e` in either case, a sign if there is one, and digits. -/
inductive Exponent : Bytes → Prop
  | mk {mark : UInt8} {sign digits : Bytes} (either : mark = 'e'.toUInt8 ∨ mark = 'E'.toUInt8)
      (signed : sign = [] ∨ sign = ['+'.toUInt8] ∨ sign = ['-'.toUInt8]) (some : digits ≠ [])
      (all : Digits digits) : Exponent (mark :: (sign ++ digits))

/-- **A number.** It is an integer if it has neither fraction nor exponent. -/
inductive Number : TokenKind → Bytes → Prop
  | integer {sign whole : Bytes} (minus : Minus sign) (digits : Whole whole) :
      Number .integer (sign ++ whole)
  | fraction {sign whole part : Bytes} (minus : Minus sign) (digits : Whole whole)
      (fraction : Fraction part) : Number .number (sign ++ (whole ++ part))
  | exponent {sign whole power : Bytes} (minus : Minus sign) (digits : Whole whole)
      (exponent : Exponent power) : Number .number (sign ++ (whole ++ power))
  | both {sign whole part power : Bytes} (minus : Minus sign) (digits : Whole whole)
      (fraction : Fraction part) (exponent : Exponent power) :
      Number .number (sign ++ (whole ++ (part ++ power)))

/-! ## 3. Strings -/

/-- **What stands between quotes**, and whether there is an escape in it. -/
inductive Body : (escaped : Bool) → Bytes → Prop
  | nil : Body false []
  | plain {escaped : Bool} {b : UInt8} {rest : Bytes} (visible : 0x20 ≤ b)
      (quote : b ≠ '"'.toUInt8) (backslash : b ≠ '\\'.toUInt8) (more : Body escaped rest) :
      Body escaped (b :: rest)
  | short {escaped : Bool} {b : UInt8} {rest : Bytes}
      (letter : b ∈ ['"', '\\', '/', 'b', 'f', 'n', 'r', 't'].map Char.toUInt8)
      (more : Body escaped rest) : Body true ('\\'.toUInt8 :: b :: rest)
  | unicode {escaped : Bool} {b₁ b₂ b₃ b₄ : UInt8} {rest : Bytes} (first : HexDigit b₁)
      (second : HexDigit b₂) (third : HexDigit b₃) (fourth : HexDigit b₄)
      (more : Body escaped rest) :
      Body true ('\\'.toUInt8 :: 'u'.toUInt8 :: b₁ :: b₂ :: b₃ :: b₄ :: rest)

/-! ## 4. Scalars -/

/-- The kind of a string. -/
def stringKind (escaped : Bool) : TokenKind := if escaped then .escString else .string

/-- **A value of one lexeme**, and its kind. -/
inductive Scalar : TokenKind → Bytes → Prop
  | null : Scalar .null (['n', 'u', 'l', 'l'].map Char.toUInt8)
  | true : Scalar .true (['t', 'r', 'u', 'e'].map Char.toUInt8)
  | false : Scalar .false (['f', 'a', 'l', 's', 'e'].map Char.toUInt8)
  | number {kind : TokenKind} {text : Bytes} (number : Number kind text) : Scalar kind text
  | string {escaped : Bool} {body : Bytes} (inside : Body escaped body) :
      Scalar (stringKind escaped) ('"'.toUInt8 :: (body ++ ['"'.toUInt8]))

/-- What may come after a scalar, or after a key. -/
inductive Ended : Bytes → Prop
  | nil : Ended []
  | gap {b : UInt8} {rest : Bytes} (h : isGap b = Bool.true) : Ended (b :: rest)
  | comma {rest : Bytes} : Ended (','.toUInt8 :: rest)
  | colon {rest : Bytes} : Ended (':'.toUInt8 :: rest)
  | bracket {rest : Bytes} : Ended (']'.toUInt8 :: rest)
  | brace {rest : Bytes} : Ended ('\x7d'.toUInt8 :: rest)

/-! ## 5. Reading bytes -/

open Token

section Bytes

variable {b : UInt8}

theorem isGap_iff : isGap b = Bool.true ↔ b = 0x20 ∨ b = 0x09 ∨ b = 0x0A ∨ b = 0x0D := by
  simp only [isGap, Bool.or_eq_true, beq_iff_eq, or_assoc]

theorem isDigit_iff : isDigit b = Bool.true ↔ 0x30 ≤ b ∧ b ≤ 0x39 := by
  simp only [isDigit, Bool.and_eq_true, decide_eq_true_eq]

theorem isHexDigit_iff : isHexDigit b = Bool.true ↔ HexDigit b := by
  simp only [HexDigit, isHexDigit, Bool.or_eq_true, isDigit_iff, Bool.and_eq_true,
    decide_eq_true_eq, or_assoc]

theorem isShortEscape_iff : isShortEscape b = Bool.true ↔
    b ∈ ['"', '\\', '/', 'b', 'f', 'n', 'r', 't'].map Char.toUInt8 := by
  simp only [isShortEscape, Bool.or_eq_true, beq_iff_eq, List.map_cons, List.map_nil,
    List.mem_cons, List.not_mem_nil, or_false, or_assoc]

end Bytes

/-! ## 6. Reading strings -/

/-- **A string is read** up to its closing quote. -/
theorem lexString_body {start : Nat} {e : Bool} {body rest : Bytes} (h : Body e body) :
    ∀ (escaped : Bool) (offset : Nat),
      lexString start .plain escaped offset (body ++ '"'.toUInt8 :: rest) =
        .ok (escaped || e, ⟨offset + body.length + 1, rest⟩) := by
  induction h with
  | nil =>
    intro escaped offset
    rw [List.nil_append, lexString, if_pos rfl, Bool.or_false]
    rfl
  | @plain e b body visible quote backslash _ ih =>
    intro escaped offset
    rw [List.cons_append, lexString, if_neg quote, if_neg backslash,
      if_neg (UInt8.not_lt.mpr visible), ih]
    have hlen : offset + 1 + body.length = offset + (b :: body).length := by
      rw [List.length_cons]
      omega
    rw [hlen]
  | @short e b body letter _ ih =>
    intro escaped offset
    have hb := isShortEscape_iff.mpr letter
    have hlen : offset + 1 + 1 + body.length = offset + ('\\'.toUInt8 :: b :: body).length := by
      simp only [List.length_cons]
      omega
    rw [List.cons_append, List.cons_append, lexString, if_neg (by decide), if_pos rfl, lexString,
      if_pos hb, ih, Bool.true_or, Bool.or_true, hlen]
  | @unicode e b₁ b₂ b₃ b₄ body first second third fourth _ ih =>
    intro escaped offset
    simp only [List.cons_append]
    rw [lexString, if_neg (by decide), if_pos rfl, lexString, if_neg (by decide), if_pos rfl]
    simp only [lexString, isHexDigit_iff.mpr first, isHexDigit_iff.mpr second,
      isHexDigit_iff.mpr third, isHexDigit_iff.mpr fourth, if_true]
    have hlen : offset + 1 + 1 + 1 + 1 + 1 + 1 + body.length =
        offset + ('\\'.toUInt8 :: 'u'.toUInt8 :: b₁ :: b₂ :: b₃ :: b₄ :: body).length := by
      simp only [List.length_cons]
      omega
    rw [ih, Bool.true_or, Bool.or_true, hlen]

/-! ## 7. Reading numbers -/

/-- Digits lead to the same place again and again. -/
theorem lexNumber_digits {p : NumberPlace} {rest : Bytes}
    (hp : ∀ b, isDigit b = Bool.true → p.next? b = some p) : ∀ {digits : Bytes}, Digits digits →
    ∀ offset, lexNumber p offset (digits ++ rest) = lexNumber p (offset + digits.length) rest
  | [], _, offset => rfl
  | b :: more, h, offset => by
    rw [List.cons_append, lexNumber, hp b (isDigit_iff.mpr (h b List.mem_cons_self))]
    dsimp only
    rw [lexNumber_digits hp (fun b hb => h b (List.mem_cons_of_mem _ hb)), List.length_cons,
      Nat.add_assoc, Nat.add_comm 1]

theorem next?_integer {b : UInt8} (h : isDigit b = Bool.true) :
    NumberPlace.integer.next? b = some .integer := if_pos h

theorem next?_fraction {b : UInt8} (h : isDigit b = Bool.true) :
    NumberPlace.fraction.next? b = some .fraction := if_pos h

theorem next?_exponent {b : UInt8} (h : isDigit b = Bool.true) :
    NumberPlace.exponent.next? b = some .exponent := if_pos h

/-- A number ends where it may, if nothing follows that could go on with it. -/
theorem lexNumber_ended {p : NumberPlace} {kind : TokenKind} {rest : Bytes}
    (hk : p.kind? = some kind) (h : Ended rest) (offset : Nat) :
    lexNumber p offset rest = .ok (kind, ⟨offset, rest⟩) := by
  have stops {b : UInt8} {more : Bytes} (hn : p.next? b = none) (hf : p.forbids b = Bool.false) :
      lexNumber p offset (b :: more) = .ok (kind, ⟨offset, b :: more⟩) := by
    rw [lexNumber, hn]
    dsimp only
    rw [hk]
    dsimp only
    rw [hf]
    rfl
  cases h with
  | nil =>
    rw [lexNumber, hk]
  | @gap b more h =>
    rcases isGap_iff.mp h with rfl | rfl | rfl | rfl <;> cases p <;> exact stops rfl rfl
  | comma | colon | bracket | brace =>
    cases p <;> exact stops rfl rfl

/-- The place after the digits before the point. -/
def AfterWhole (p : NumberPlace) : Prop := p = .zero ∨ p = .integer

/-- The digits before the point are read from the start, and after a sign. -/
theorem lexNumber_whole {whole : Bytes} (h : Whole whole) : ∃ b more p, whole = b :: more ∧
    NumberPlace.first? b = some p ∧ NumberPlace.minus.next? b = some p ∧ AfterWhole p ∧
      ∀ offset rest, lexNumber p offset (more ++ rest) = lexNumber p (offset + more.length) rest := by
  cases h with
  | zero => exact ⟨_, [], .zero, rfl, rfl, rfl, .inl rfl, fun _ _ => rfl⟩
  | @digits b more first all =>
    have hd : isDigit b = Bool.true := isDigit_iff.mpr ⟨UInt8.le_trans (by decide) first.1, first.2⟩
    have hm : b ≠ '-'.toUInt8 := by
      rintro rfl
      exact absurd first.1 (by decide)
    have h0 : b ≠ '0'.toUInt8 := by
      rintro rfl
      exact absurd first.1 (by decide)
    refine ⟨b, more, .integer, rfl, ?_, ?_, .inr rfl, fun offset rest =>
      lexNumber_digits (fun _ => next?_integer) all offset⟩
    · rw [NumberPlace.first?, if_neg hm, if_neg h0, if_pos hd]
    · rw [NumberPlace.next?, if_neg h0, if_pos hd]

/-- A number up to its point is read. -/
theorem lexNumber_start {sign whole : Bytes} (hs : Minus sign) (hw : Whole whole) :
    ∃ b more p p', sign ++ whole = b :: more ∧ NumberPlace.first? b = some p ∧ AfterWhole p' ∧
      ∀ offset rest, lexNumber p offset (more ++ rest) =
        lexNumber p' (offset + more.length) rest := by
  obtain ⟨b, more, p, rfl, hfirst, hnext, hp, hread⟩ := lexNumber_whole hw
  cases hs with
  | none => exact ⟨b, more, p, p, rfl, hfirst, hp, hread⟩
  | some =>
    refine ⟨_, b :: more, .minus, p, rfl, rfl, hp, fun offset rest => ?_⟩
    rw [List.cons_append, lexNumber, hnext]
    dsimp only
    rw [hread, List.length_cons, Nat.add_assoc, Nat.add_comm 1]

theorem lexNumber_fraction {p : NumberPlace} {part : Bytes} (hp : AfterWhole p)
    (h : Fraction part) (offset : Nat) (rest : Bytes) :
    lexNumber p offset (part ++ rest) = lexNumber .fraction (offset + part.length) rest := by
  obtain ⟨hne, all⟩ := h
  rename_i digits
  have point : p.next? '.'.toUInt8 = some .point := by
    rcases hp with rfl | rfl <;> rfl
  obtain ⟨b, more, rfl⟩ := List.exists_cons_of_ne_nil hne
  have hb : NumberPlace.point.next? b = some .fraction :=
    if_pos (isDigit_iff.mpr (all b List.mem_cons_self))
  rw [List.cons_append, lexNumber, point]
  dsimp only
  rw [List.cons_append, lexNumber, hb]
  dsimp only
  rw [lexNumber_digits (fun _ => next?_fraction) fun b hb => all b (List.mem_cons_of_mem _ hb)]
  simp only [List.length_cons]
  rw [show offset + 1 + 1 + more.length = offset + (more.length + 1 + 1) by omega]

theorem lexNumber_exponent {p : NumberPlace} {power : Bytes} (hp : AfterWhole p ∨ p = .fraction)
    (h : Exponent power) (offset : Nat) (rest : Bytes) :
    lexNumber p offset (power ++ rest) = lexNumber .exponent (offset + power.length) rest := by
  obtain ⟨either, signed, hne, all⟩ := h
  rename_i mark sign digits
  have marked : p.next? mark = some .exponentMark := by
    rcases either with rfl | rfl <;> rcases hp with (rfl | rfl) | rfl <;> rfl
  obtain ⟨b, more, rfl⟩ := List.exists_cons_of_ne_nil hne
  have hd : isDigit b = Bool.true := isDigit_iff.mpr (all b List.mem_cons_self)
  have digits (offset : Nat) : lexNumber .exponent offset (more ++ rest) =
      lexNumber .exponent (offset + more.length) rest :=
    lexNumber_digits (fun _ => next?_exponent)
      (fun b hb => all b (List.mem_cons_of_mem _ hb)) offset
  rw [List.cons_append, lexNumber, marked]
  dsimp only
  rcases signed with rfl | hsign
  · have hb : NumberPlace.exponentMark.next? b = some .exponent := by
      have hsign : ¬ (b = '+'.toUInt8 ∨ b = '-'.toUInt8) := by
        rintro (rfl | rfl)
        · cases hd
        · cases hd
      rw [NumberPlace.next?, if_neg hsign, if_pos hd]
    rw [List.nil_append, List.cons_append, lexNumber, hb]
    dsimp only
    rw [digits]
    simp only [List.length_cons]
    rw [show offset + 1 + 1 + more.length = offset + (more.length + 1 + 1) by omega]
  · have hb : NumberPlace.exponentSign.next? b = some .exponent := if_pos hd
    have signs : ∃ s, sign = [s] ∧ NumberPlace.exponentMark.next? s = some .exponentSign := by
      rcases hsign with rfl | rfl
      · exact ⟨_, rfl, rfl⟩
      · exact ⟨_, rfl, rfl⟩
    obtain ⟨s, rfl, hs⟩ := signs
    rw [List.append_assoc, List.cons_append, List.nil_append, lexNumber, hs]
    dsimp only
    rw [List.cons_append, lexNumber, hb]
    dsimp only
    rw [digits]
    simp only [List.length_cons, List.length_append, List.length_nil]
    rw [show offset + 1 + 1 + 1 + more.length = offset + (0 + 1 + (more.length + 1) + 1) by omega]

/-- **A number is read** as far as it goes. -/
theorem lexNumber_number {kind : TokenKind} {text rest : Bytes} (h : Number kind text)
    (hr : Ended rest) : ∃ b more p, text = b :: more ∧ NumberPlace.first? b = some p ∧
      ∀ offset, lexNumber p offset (more ++ rest) = .ok (kind, ⟨offset + more.length, rest⟩) := by
  have plain {p : NumberPlace} (hp : AfterWhole p) : p.kind? = some .integer := by
    rcases hp with rfl | rfl <;> rfl
  cases h with
  | integer minus digits =>
    obtain ⟨b, more, p, p', he, hfirst, hp, hread⟩ := lexNumber_start minus digits
    exact ⟨b, more, p, he, hfirst, fun offset => by
      rw [hread, lexNumber_ended (plain hp) hr]⟩
  | @fraction sign whole part minus digits fraction =>
    obtain ⟨b, more, p, p', he, hfirst, hp, hread⟩ := lexNumber_start minus digits
    refine ⟨b, more ++ part, p, by rw [← List.append_assoc, he]; rfl, hfirst, fun offset => ?_⟩
    rw [List.append_assoc, hread, lexNumber_fraction hp fraction, lexNumber_ended rfl hr,
      List.length_append, Nat.add_assoc]
  | @exponent sign whole power minus digits exponent =>
    obtain ⟨b, more, p, p', he, hfirst, hp, hread⟩ := lexNumber_start minus digits
    refine ⟨b, more ++ power, p, by rw [← List.append_assoc, he]; rfl, hfirst, fun offset => ?_⟩
    rw [List.append_assoc, hread, lexNumber_exponent (.inl hp) exponent, lexNumber_ended rfl hr,
      List.length_append, Nat.add_assoc]
  | @both sign whole part power minus digits fraction exponent =>
    obtain ⟨b, more, p, p', he, hfirst, hp, hread⟩ := lexNumber_start minus digits
    refine ⟨b, more ++ (part ++ power), p, by rw [← List.append_assoc, he]; rfl, hfirst,
      fun offset => ?_⟩
    rw [List.append_assoc, hread, List.append_assoc, lexNumber_fraction hp fraction,
      lexNumber_exponent (.inr rfl) exponent, lexNumber_ended rfl hr, List.length_append,
      List.length_append, Nat.add_assoc, Nat.add_assoc]

/-! ## 8. Reading lexemes -/

theorem upTo_text {offset : Nat} {t rest : Bytes} {kind : TokenKind} :
    upTo offset (t ++ rest) kind ⟨offset + t.length, rest⟩ = (⟨kind, offset, t⟩, rest) := by
  rw [upTo, Nat.add_sub_cancel_left, List.take_left]

/-- What begins a number begins nothing else. -/
theorem first?_alone {b : UInt8} {p : NumberPlace} (h : NumberPlace.first? b = some p) :
    isGap b = Bool.false ∧ structural? b = none ∧ b ≠ '"'.toUInt8 := by
  have hb : b = '-'.toUInt8 ∨ isDigit b = Bool.true := by
    unfold NumberPlace.first? at h
    split at h
    · next hb => exact .inl hb
    · split at h
      · next hb =>
        rw [hb]
        exact .inr rfl
      · split at h
        · next hb => exact .inr hb
        · cases h
  rcases hb with rfl | hb
  · exact ⟨rfl, rfl, by decide⟩
  · have ne {x : UInt8} (hx : isDigit x = Bool.false) : b ≠ x := by
      rintro rfl
      rw [hx] at hb
      cases hb
    refine ⟨?_, ?_, ne rfl⟩
    · simp only [isGap, Bool.or_eq_false_iff, beq_eq_false_iff_ne]
      exact ⟨⟨⟨ne rfl, ne rfl⟩, ne rfl⟩, ne rfl⟩
    · rw [structural?, if_neg (ne rfl), if_neg (ne rfl), if_neg (ne rfl), if_neg (ne rfl),
        if_neg (ne rfl), if_neg (ne rfl)]

/-- A word is read letter by letter. -/
theorem lexWord_word {start : Nat} {rest : Bytes} : ∀ (word : Bytes) (offset : Nat),
    lexWord start word offset (word ++ rest) = .ok ⟨offset + word.length, rest⟩
  | [], offset => rfl
  | b :: more, offset => by
    rw [List.cons_append, lexWord, if_pos rfl, lexWord_word more, List.length_cons, Nat.add_assoc,
      Nat.add_comm 1]

/-- What begins a word begins nothing else. -/
theorem word?_alone {b : UInt8} {more : Bytes} {kind : TokenKind}
    (h : word? b = some (more, kind)) : isGap b = Bool.false ∧ structural? b = none ∧
      b ≠ '"'.toUInt8 ∧ NumberPlace.first? b = none := by
  unfold word? at h
  repeat' split at h
  all_goals cases h
  all_goals
    next hb =>
      rw [hb]
      exact ⟨rfl, rfl, by decide, rfl⟩

section Lexeme

variable {b : UInt8} {more rest : Bytes} {kind : TokenKind} {offset : Nat}

/-- A word is one lexeme. -/
theorem lexeme_word (h : word? b = some (more, kind)) :
    Token.lexeme offset b (more ++ rest) = .ok (⟨kind, offset, b :: more⟩, rest) := by
  obtain ⟨-, hs, hq, hn⟩ := word?_alone h
  have hlen : offset + 1 + more.length = offset + (b :: more).length := by
    rw [List.length_cons]
    omega
  simp only [Token.lexeme, hs, if_neg hq, hn, h, lexWord_word, hlen]
  rw [← List.cons_append, upTo_text]

/-- A number is one lexeme, as far as it is read. -/
theorem lexeme_number {p : NumberPlace} (hfirst : NumberPlace.first? b = some p)
    (hread : lexNumber p (offset + 1) (more ++ rest) =
      .ok (kind, ⟨offset + 1 + more.length, rest⟩)) :
    Token.lexeme offset b (more ++ rest) = .ok (⟨kind, offset, b :: more⟩, rest) := by
  obtain ⟨-, hs, hq⟩ := first?_alone hfirst
  have hlen : offset + 1 + more.length = offset + (b :: more).length := by
    rw [List.length_cons]
    omega
  simp only [Token.lexeme, hs, if_neg hq, hfirst, hread, hlen]
  rw [← List.cons_append, upTo_text]

/-- A string is one lexeme. -/
theorem lexeme_string {escaped : Bool} {body : Bytes} (inside : Body escaped body) :
    Token.lexeme offset '"'.toUInt8 (body ++ '"'.toUInt8 :: rest) =
      .ok (⟨stringKind escaped, offset, '"'.toUInt8 :: (body ++ ['"'.toUInt8])⟩, rest) := by
  have hs : structural? '"'.toUInt8 = none := rfl
  have hlen : offset + 1 + body.length + 1 =
      offset + ('"'.toUInt8 :: (body ++ ['"'.toUInt8])).length := by
    simp only [List.length_cons, List.length_append, List.length_nil]
    omega
  have hread := @lexString_body offset _ _ rest inside Bool.false (offset + 1)
  rw [Bool.false_or, hlen] at hread
  have hsplit : '"'.toUInt8 :: (body ++ '"'.toUInt8 :: rest) =
      '"'.toUInt8 :: (body ++ ['"'.toUInt8]) ++ rest := by
    rw [List.cons_append, List.append_assoc, List.singleton_append]
  simp only [Token.lexeme, hs, if_true, hread]
  rw [hsplit, upTo_text]
  rfl

end Lexeme

/-- **A scalar is read** as one lexeme. -/
theorem Scalar.lexeme {kind : TokenKind} {text rest : Bytes} (h : Scalar kind text)
    (hr : Ended rest) (offset : Nat) : ∃ b more, text = b :: more ∧ isGap b = Bool.false ∧
      Token.lexeme offset b (more ++ rest) = .ok (⟨kind, offset, text⟩, rest) := by
  cases h with
  | null => exact ⟨_, _, rfl, rfl, lexeme_word rfl⟩
  | true => exact ⟨_, _, rfl, rfl, lexeme_word rfl⟩
  | false => exact ⟨_, _, rfl, rfl, lexeme_word rfl⟩
  | number number =>
    obtain ⟨b, more, p, rfl, hfirst, hread⟩ := lexNumber_number number hr
    exact ⟨b, more, rfl, (first?_alone hfirst).1, lexeme_number hfirst (hread (offset + 1))⟩
  | string inside =>
    refine ⟨_, _, rfl, rfl, ?_⟩
    rw [List.append_assoc, List.singleton_append]
    exact lexeme_string inside

end Sift.Grammar
