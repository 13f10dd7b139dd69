import Sift.Json.Text
import Sift.Proofs.Text.Spelling
import Sift.Proofs.Text.Utf8
import Sift.Proofs.Value.Integers
import Sift.Proofs.Grammar.Documents
import Mathlib

/-!
# Values of JSON and the texts that spell them

`Json.Spells` says that bytes spell a value: gaps may stand where the grammar has them, strings may
be spelled in any way, integers are in decimal, and the members of an object come in their order.
A number that is no integer is spelled by nothing here.

* `Spells.text`: what can be spelled is written as one of its spellings.
* `Grammar.body_of_spells` and `Grammar.number_integer_iff` tell that strings and integers that are
  spelled so are those of the grammar.
-/

namespace Sift

open Grammar

/-! ## 1. Spellings -/

/-- The integer that a number is. -/
def JsonNumber.integer? : JsonNumber → Option Int
  | .natural n => some n.toNat
  | .negative n => some n.toInt
  | .real _ => none

namespace Json

/-- Bytes spell a string, quotes included. -/
def SpellsString (s : String) (text : Bytes) : Prop :=
  ∃ body, Text.Spells body s.toList ∧
    text = '"'.toUInt8 :: (Utf8.encode body ++ ['"'.toUInt8])

mutual

/-- **Bytes spell a value** whose numbers are integers. -/
def Spells : Json → Bytes → Prop
  | .null, text => text = ['n', 'u', 'l', 'l'].map Char.toUInt8
  | .bool true, text => text = ['t', 'r', 'u', 'e'].map Char.toUInt8
  | .bool false, text => text = ['f', 'a', 'l', 's', 'e'].map Char.toUInt8
  | .number n, text => ∃ z, n.integer? = some z ∧ Integer z text
  | .string s, text => SpellsString s text
  | .array elements, text =>
    ∃ inside, text = '['.toUInt8 :: (inside ++ [']'.toUInt8]) ∧ SpellsElements Gap elements inside
  | .object members, text =>
    ∃ inside, text = '\x7b'.toUInt8 :: (inside ++ ['\x7d'.toUInt8]) ∧
      SpellsMembers Gap members inside

/-- Bytes spell the elements of an array up to its bracket, after what `Lead` says. -/
def SpellsElements (Lead : Bytes → Prop) : List Json → Bytes → Prop
  | [], text => Gap text
  | v :: rest, text => ∃ lead own more, text = lead ++ (own ++ more) ∧ Lead lead ∧ v.Spells own ∧
      SpellsElements (Separator ','.toUInt8) rest more

/-- Bytes spell the members of an object up to its brace, after what `Lead` says. -/
def SpellsMembers (Lead : Bytes → Prop) : List (String × Json) → Bytes → Prop
  | [], text => Gap text
  | (name, v) :: rest, text => ∃ lead key colon own more,
      text = lead ++ (key ++ (colon ++ (own ++ more))) ∧ Lead lead ∧ SpellsString name key ∧
        Separator ':'.toUInt8 colon ∧ v.Spells own ∧
          SpellsMembers (Separator ','.toUInt8) rest more

end

end Json

/-! ## 2. Integers -/

namespace Utf8

/-- Characters of seven bits are one byte each. -/
theorem encode_ascii {s : List Char} (h : ∀ c ∈ s, c.toNat < 0x80) :
    encode s = s.map fun c => UInt8.ofNat c.toNat := by
  induction s with
  | nil => rfl
  | cons c s ih =>
    rw [encode_cons, encodeChar_ascii (h c List.mem_cons_self),
      ih fun c hc => h c (List.mem_cons_of_mem _ hc)]
    rfl

end Utf8

namespace Grammar

/-- A number that is not zero has a first digit that is not zero. -/
theorem toDigits_first (n : Nat) (hn : n ≠ 0) :
    ∃ d more, 0 < d ∧ d < 10 ∧ Nat.toDigits 10 n = Nat.digitChar d :: more := by
  induction n using Nat.strong_induction_on with
  | _ n ih =>
    rcases Nat.lt_or_ge n 10 with hlt | hge
    · exact ⟨n, [], Nat.pos_of_ne_zero hn, hlt, Nat.toDigits_of_lt_base hlt⟩
    · obtain ⟨d, more, hpos, hd, heq⟩ := ih (n / 10) (by omega) (by omega)
      refine ⟨d, more ++ [Nat.digitChar (n % 10)], hpos, hd, ?_⟩
      rw [Nat.toDigits_of_base_le (by decide) hge, heq]
      rfl

/-- The digits of a number, as bytes. -/
def digitBytes (n : Nat) : Bytes := Utf8.encode (Nat.toDigits 10 n)

theorem toNat_of_isDigit {c : Char} (h : c.isDigit = true) : 0x30 ≤ c.toNat ∧ c.toNat ≤ 0x39 := by
  simpa [Char.isDigit, UInt32.le_iff_toNat_le] using h

theorem byte_between {a b n : Nat} (ha : a ≤ n) (hb : n ≤ b) (hlt : b < 256) :
    UInt8.ofNat a ≤ UInt8.ofNat n ∧ UInt8.ofNat n ≤ UInt8.ofNat b := by
  rw [UInt8.le_iff_toNat_le, UInt8.le_iff_toNat_le, UInt8.toNat_ofNat', UInt8.toNat_ofNat',
    UInt8.toNat_ofNat']
  omega

theorem digitBytes_eq (n : Nat) :
    digitBytes n = (Nat.toDigits 10 n).map fun c => UInt8.ofNat c.toNat := by
  refine Utf8.encode_ascii fun c hc => ?_
  have := toNat_of_isDigit (Nat.isDigit_of_mem_toDigits (by decide) (by decide) hc)
  omega

theorem digits_digitBytes (n : Nat) : Digits (digitBytes n) := by
  rw [digitBytes_eq]
  intro b hb
  obtain ⟨c, hc, rfl⟩ := List.mem_map.mp hb
  obtain ⟨hlow, hhigh⟩ := toNat_of_isDigit (Nat.isDigit_of_mem_toDigits (by decide) (by decide) hc)
  exact byte_between hlow hhigh (by decide)

theorem whole_digitBytes (n : Nat) : Whole (digitBytes n) := by
  have hdigits := digits_digitBytes n
  rcases Nat.eq_zero_or_pos n with rfl | hn
  · exact .zero
  · obtain ⟨d, more, hpos, hlt, heq⟩ := toDigits_first n (Nat.pos_iff_ne_zero.mp hn)
    rw [digitBytes_eq, heq] at hdigits ⊢
    rw [List.map_cons] at hdigits ⊢
    refine .digits ?_ fun b hb => hdigits b (List.mem_cons_of_mem _ hb)
    rw [Nat.toNat_digitChar_of_lt_ten hlt]
    exact byte_between (a := 0x31) (b := 0x39) (by omega) (by omega) (by decide)

/-- **The digits of a number spell it.** -/
theorem decimal_digitBytes (n : Nat) : decimal (digitBytes n) = n := by
  have hchars : ((digitBytes n).map fun b => Char.ofNat b.toNat) = Nat.toDigits 10 n := by
    rw [digitBytes_eq, List.map_map]
    refine (List.map_congr_left fun c hc => ?_).trans (List.map_id _)
    have := toNat_of_isDigit (Nat.isDigit_of_mem_toDigits (by decide) (by decide) hc)
    show Char.ofNat (UInt8.ofNat c.toNat).toNat = c
    rw [UInt8.toNat_ofNat', Nat.mod_eq_of_lt (by omega), c.ofNat_toNat]
  rw [decimal, hchars, Nat.ofDigitChars_ten_toDigits]

theorem integer_digitBytes (n : Nat) : Integer n (digitBytes n) := by
  have h := Integer.natural (whole_digitBytes n)
  rwa [decimal_digitBytes] at h

/-- **An integer is written as it is spelled.** -/
theorem integer_toString (z : Int) : Integer z (Utf8.encode (toString z).toList) := by
  cases z with
  | ofNat n =>
    rw [show toString (Int.ofNat n) = n.repr from rfl, Nat.toList_repr]
    exact integer_digitBytes n
  | negSucc n =>
    rw [show toString (Int.negSucc n) = "-" ++ (n + 1).repr from rfl, String.toList_append,
      Nat.toList_repr]
    have h := Integer.negated (whole_digitBytes (n + 1))
    rw [decimal_digitBytes] at h
    exact h

/-! ## 3. Strings -/

/-- Bytes that are neither quotes, backslashes nor control characters may stand anywhere. -/
theorem body_append {escaped : Bool} {rest : Bytes} (more : Body escaped rest) :
    ∀ {bytes : Bytes}, (∀ b ∈ bytes, 0x20 ≤ b ∧ b ≠ '"'.toUInt8 ∧ b ≠ '\\'.toUInt8) →
      Body escaped (bytes ++ rest)
  | [], _ => more
  | b :: bytes, h => by
    obtain ⟨visible, quote, backslash⟩ := h b List.mem_cons_self
    exact .plain visible quote backslash
      (body_append more fun b hb => h b (List.mem_cons_of_mem _ hb))

/-- The bytes of a character that may stand raw. -/
theorem raw_bytes {c : Char} (quote : c ≠ '"') (backslash : c ≠ '\\') (visible : 0x20 ≤ c.toNat) :
    ∀ b ∈ String.utf8EncodeChar c, 0x20 ≤ b ∧ b ≠ '"'.toUInt8 ∧ b ≠ '\\'.toUInt8 := by
  intro b hb
  rcases Nat.lt_or_ge c.toNat 0x80 with hascii | hlarge
  · rw [Utf8.encodeChar_ascii hascii] at hb
    obtain rfl := List.mem_singleton.mp hb
    have ne_of {d : Char} (hd : d.toNat < 0x80) (hne : c ≠ d) :
        UInt8.ofNat c.toNat ≠ UInt8.ofNat d.toNat := fun h => hne <| by
      have h := congrArg UInt8.toNat h
      rw [UInt8.toNat_ofNat', UInt8.toNat_ofNat', Nat.mod_eq_of_lt (by omega),
        Nat.mod_eq_of_lt (by omega)] at h
      rw [← c.ofNat_toNat, h, d.ofNat_toNat]
    exact ⟨(byte_between visible (Nat.le_refl _) (by omega)).1, ne_of (by decide) quote,
      ne_of (by decide) backslash⟩
  · have hle := Utf8.le_of_mem_encodeChar hlarge hb
    refine ⟨UInt8.le_trans (by decide) hle, ?_, ?_⟩
    · rintro rfl
      exact absurd hle (by decide)
    · rintro rfl
      exact absurd hle (by decide)

theorem hexDigit_byte {n : Nat} {c : Char} (h : Text.HexDigit n c) :
    c.toNat < 0x80 ∧ HexDigit (UInt8.ofNat c.toNat) := by
  have hlower : ∀ n : Fin 16, "0123456789abcdef".toList[n].toNat < 0x80 ∧
      Token.isHexDigit (UInt8.ofNat "0123456789abcdef".toList[n].toNat) = true := by decide
  have hupper : ∀ n : Fin 16, "0123456789ABCDEF".toList[n].toNat < 0x80 ∧
      Token.isHexDigit (UInt8.ofNat "0123456789ABCDEF".toList[n].toNat) = true := by decide
  rw [← isHexDigit_iff]
  rcases h with h | h
  · obtain ⟨hlt, rfl⟩ := List.getElem?_eq_some_iff.mp h
    exact hlower ⟨n, hlt⟩
  · obtain ⟨hlt, rfl⟩ := List.getElem?_eq_some_iff.mp h
    exact hupper ⟨n, hlt⟩

/-- The digits of a code unit after a backslash and a `u`. -/
theorem body_unit {n : Nat} {digits rest : List Char} {escaped : Bool}
    (h : Text.CodeUnit n digits) (more : Body escaped (Utf8.encode rest)) :
    Body true (Utf8.encode ('\\' :: 'u' :: (digits ++ rest))) := by
  obtain ⟨first, second, third, fourth⟩ := h
  obtain ⟨h₁, first⟩ := hexDigit_byte first
  obtain ⟨h₂, second⟩ := hexDigit_byte second
  obtain ⟨h₃, third⟩ := hexDigit_byte third
  obtain ⟨h₄, fourth⟩ := hexDigit_byte fourth
  simp only [List.cons_append, List.nil_append, Utf8.encode_cons, Utf8.encodeChar_ascii h₁,
    Utf8.encodeChar_ascii h₂, Utf8.encodeChar_ascii h₃, Utf8.encodeChar_ascii h₄]
  exact .unicode first second third fourth more

/-- **What spells a text is the body of a string** by the grammar. -/
theorem body_of_spells {body text : List Char} (h : Text.Spells body text) :
    ∃ escaped, Body escaped (Utf8.encode body) := by
  induction h with
  | nil => exact ⟨false, .nil⟩
  | raw quote backslash visible more ih =>
    obtain ⟨escaped, ih⟩ := ih
    exact ⟨escaped, body_append ih (raw_bytes quote backslash visible)⟩
  | @letter letter c body text names more ih =>
    obtain ⟨escaped, ih⟩ := ih
    have hletters : ∀ p ∈ Text.letters, p.1.toNat < 0x80 ∧ UInt8.ofNat p.1.toNat ∈
        ['"', '\\', '/', 'b', 'f', 'n', 'r', 't'].map Char.toUInt8 := by decide
    obtain ⟨hascii, hmem⟩ := hletters _ names
    rw [Utf8.encode_cons, Utf8.encode_cons, Utf8.encodeChar_ascii hascii]
    exact ⟨true, .short hmem ih⟩
  | unit unit more ih =>
    obtain ⟨escaped, ih⟩ := ih
    exact ⟨true, body_unit unit ih⟩
  | pair above first second more ih =>
    obtain ⟨escaped, ih⟩ := ih
    exact ⟨true, body_unit first (body_unit second ih)⟩

end Grammar

/-! ## 4. Writing -/

namespace Json

theorem spellsString_quoted (s : String) :
    SpellsString s (Utf8.encode (Text.Escape.quoted s.toList)) := by
  refine ⟨Text.Escape.escaped s.toList, Text.spells_escaped s.toList, ?_⟩
  rw [Text.Escape.quoted, List.cons_append, Utf8.encode_cons, Utf8.encode_append]
  rfl

/-- A number that has a spelling is written as one. -/
theorem integer_text {n : JsonNumber} {z : Int} (h : n.integer? = some z) :
    Integer z (Utf8.encode n.text) := by
  cases n with
  | natural n =>
    cases h
    exact integer_toString n.toNat
  | negative n =>
    cases h
    exact integer_toString n.toInt
  | real x => cases h

/-- Texts one after the other, told with a comma before each but the first. -/
theorem listed_cons (text : List Char) : ∀ rest : List (List Char),
    listed (text :: rest) = text ++ rest.flatMap (',' :: ·)
  | [] => (List.append_nil text).symm
  | next :: rest => by
    rw [listed, listed_cons next rest]
    · rfl
    · exact List.cons_ne_nil _ _

mutual

/-- **What can be spelled is written as one of its spellings.** -/
theorem Spells.text : ∀ {v : Json} {text : Bytes}, v.Spells text → v.Spells (Utf8.encode v.text)
  | .null, _, _ => rfl
  | .bool true, _, _ => rfl
  | .bool false, _, _ => rfl
  | .number _, _, ⟨z, hz, _⟩ => ⟨z, hz, integer_text hz⟩
  | .string s, _, _ => spellsString_quoted s
  | .array elements, _, ⟨_, _, h⟩ => by
    refine ⟨Utf8.encode (listed (elementTexts elements)), ?_, SpellsElements.listed h⟩
    rw [Json.text, List.cons_append, Utf8.encode_cons, Utf8.encode_append]
    rfl
  | .object members, _, ⟨_, _, h⟩ => by
    refine ⟨Utf8.encode (listed (memberTexts members)), ?_, SpellsMembers.listed h⟩
    rw [Json.text, List.cons_append, Utf8.encode_cons, Utf8.encode_append]
    rfl

theorem SpellsElements.listed {Lead : Bytes → Prop} : ∀ {elements : List Json} {text : Bytes},
    SpellsElements Lead elements text →
      SpellsElements Gap elements (Utf8.encode (listed (elementTexts elements)))
  | [], _, _ => gap_nil
  | v :: rest, _, ⟨_, _, _, _, _, hv, hrest⟩ => by
    refine ⟨[], _, _, ?_, gap_nil, Spells.text hv, SpellsElements.trailing hrest⟩
    rw [elementTexts, listed_cons, Utf8.encode_append]
    rfl

theorem SpellsElements.trailing {Lead : Bytes → Prop} : ∀ {elements : List Json} {text : Bytes},
    SpellsElements Lead elements text → SpellsElements (Separator ','.toUInt8) elements
      (Utf8.encode ((elementTexts elements).flatMap (',' :: ·)))
  | [], _, _ => gap_nil
  | v :: rest, _, ⟨_, _, _, _, _, hv, hrest⟩ => by
    refine ⟨[','.toUInt8], _, _, ?_, separator_sign _, Spells.text hv,
      SpellsElements.trailing hrest⟩
    rw [elementTexts, List.flatMap_cons, List.cons_append, Utf8.encode_cons, Utf8.encode_append]
    rfl

theorem SpellsMembers.listed {Lead : Bytes → Prop} :
    ∀ {members : List (String × Json)} {text : Bytes}, SpellsMembers Lead members text →
      SpellsMembers Gap members (Utf8.encode (listed (memberTexts members)))
  | [], _, _ => gap_nil
  | (name, v) :: rest, _, ⟨_, _, _, _, _, _, _, _, _, hv, hrest⟩ => by
    refine ⟨[], _, _, _, _, ?_, gap_nil, spellsString_quoted name, separator_sign _, Spells.text hv,
      SpellsMembers.trailing hrest⟩
    rw [memberTexts, listed_cons, Utf8.encode_append, Utf8.encode_append, List.append_assoc]
    rfl

theorem SpellsMembers.trailing {Lead : Bytes → Prop} :
    ∀ {members : List (String × Json)} {text : Bytes}, SpellsMembers Lead members text →
      SpellsMembers (Separator ','.toUInt8) members
        (Utf8.encode ((memberTexts members).flatMap (',' :: ·)))
  | [], _, _ => gap_nil
  | (name, v) :: rest, _, ⟨_, _, _, _, _, _, _, _, _, hv, hrest⟩ => by
    refine ⟨[','.toUInt8], _, _, _, _, ?_, separator_sign _, spellsString_quoted name,
      separator_sign _, Spells.text hv, SpellsMembers.trailing hrest⟩
    rw [memberTexts, List.flatMap_cons, List.cons_append, Utf8.encode_cons, Utf8.encode_append,
      Utf8.encode_append, List.append_assoc]
    rfl

end

end Json

end Sift
