import Sift.Proofs.Grammar.Tokens
import Sift.Proofs.Text.Spelling
import Sift.Proofs.Text.Utf8
import Sift.Proofs.Value.Preorder

/-!
# Strings by the texts that they stand for

A string of a document is kept as it is written there, and what is compared are the bytes of its
text. `strings_stand_for_texts`: whatever the spelling of a text, unescaping gives the text; and two
strings of documents lie in the order of the bytes of their unescaped texts, whether they have
escapes or not. A string that the lexer finds no escape in has no backslash, and so it is the text
itself (`unescaped_plain`).
-/

namespace Sift

variable {D : Decimals} {data : Bytes} {pos : Nat} {t : Token} {s : String}

/-! ## 1. The body of a string -/

theorem Grammar.Lexeme.string_parts {kind : TokenKind} {text rest : Bytes}
    (h : Grammar.Lexeme kind text rest) (hs : kind.isString = true) :
    ∃ escaped body, Grammar.Body escaped body ∧ text = '"'.toUInt8 :: (body ++ ['"'.toUInt8]) ∧
      kind = if '\\'.toUInt8 ∈ body then .escString else .string := by
  cases h with
  | string inside => exact ⟨_, _, inside, rfl, rfl⟩
  | finish => cases hs
  | sign sign => cases sign <;> cases hs
  | word word => cases word <;> cases hs
  | number number => cases number.complete <;> cases hs

/-- A lexeme that is a value by itself is a scalar of the grammar. -/
theorem Grammar.Lexeme.scalar {kind : TokenKind} {text rest : Bytes}
    (h : Grammar.Lexeme kind text rest) (hs : kind.isScalar = true) : Grammar.Scalar kind text := by
  cases h with
  | finish => cases hs
  | sign sign => cases sign <;> cases hs
  | word word =>
    cases word with
    | null => exact .null
    | true => exact .true
    | false => exact .false
  | number number => exact .number number.complete
  | string inside =>
    rw [← inside.kind_eq]
    exact .string inside

/-- The body of a string is what stands between its quotes. -/
theorem Token.body_eq {body : Bytes} (hs : t.kind.isString = true)
    (ht : t.text = '"'.toUInt8 :: (body ++ ['"'.toUInt8])) : t.body = body := by
  rw [Token.body, if_pos hs, ht]
  exact List.dropLast_concat

/-- A string without a backslash is no string with escapes. -/
theorem Token.Next.backslash_iff (h : Token.Next data pos t) (hs : t.kind.isString = true) :
    t.kind = if '\\'.toUInt8 ∈ t.body then .escString else .string := by
  obtain ⟨rest, hlex⟩ := h
  obtain ⟨-, -, -, -, hl⟩ := Grammar.lex_sound hlex
  obtain ⟨_, body, -, ht, hk⟩ := hl.string_parts hs
  rwa [Token.body_eq hs ht]

theorem Token.Next.scalar (h : Token.Next data pos t) (hs : t.kind.isScalar = true) :
    Grammar.Scalar t.kind t.text := by
  obtain ⟨rest, hlex⟩ := h
  obtain ⟨-, -, -, -, hl⟩ := Grammar.lex_sound hlex
  exact hl.scalar hs

/-! ## 2. Texts -/

/-- A text without a backslash is its own spelling. -/
theorem Text.Escape.unescape_plain : ∀ {s : List Char}, '\\' ∉ s → Text.Escape.unescape s = s
  | [], _ => Text.Escape.unescape_of_none rfl
  | c :: s, h => by
    have hc : c ≠ '\\' := fun hc => h (hc ▸ List.mem_cons_self)
    rw [Text.Escape.unescape_of_next? (Text.Escape.next?_raw hc),
      unescape_plain fun hs => h (List.mem_cons_of_mem c hs)]
    rfl

namespace Value

theorem unescaped_plain (h : '\\' ∉ s.toList) : unescaped s = s := by
  rw [unescaped, Text.Escape.unescape_plain h, String.ofList_toList]

theorem textBytes_string (s : String) : (string s).textBytes = Utf8.bytes s := rfl

theorem textBytes_escString (body : String) :
    (escString body).textBytes = Utf8.bytes (unescaped body) := by
  rw [Utf8.bytes, unescaped, String.toList_ofList]
  rfl

/-- A token that has a backslash if it has escapes stands for its unescaped text. -/
theorem ofToken_body (hk : t.kind = if '\\'.toUInt8 ∈ t.body then .escString else .string)
    (hu : Utf8.text? t.body = some s) :
    (ofToken t).isStringLike = true ∧ (ofToken t).textBytes = Utf8.bytes (unescaped s) := by
  split at hk
  · rw [ofToken, hk, hu]
    exact ⟨rfl, textBytes_escString s⟩
  · next hplain =>
    rw [ofToken, hk, hu]
    have hback : '\\' ∉ s.toList := fun hmem => hplain <| by
      rw [← Utf8.text?_eq_some_iff.mp hu]
      exact Utf8.mem_encode hmem (by decide)
    exact ⟨rfl, by rw [textBytes_string, unescaped_plain hback]⟩

/-- **The value of a string of a document** stands for its unescaped text. -/
theorem ofToken_string (h : Token.Next data pos t) (hs : t.kind.isString = true)
    (hu : Utf8.text? t.body = some s) :
    (ofToken t).isStringLike = true ∧ (ofToken t).textBytes = Utf8.bytes (unescaped s) :=
  ofToken_body (h.backslash_iff hs) hu

theorem number?_of_string {v : Value} (h : v.isStringLike = true) : v.number? = none := by
  cases v <;> first
    | rfl
    | cases h

/-- Strings compare by the bytes of their texts. -/
theorem compareScalars_strings {a b : Value} (ha : a.isStringLike = true)
    (hb : b.isStringLike = true) : compareScalars D a b = compareBytes a.textBytes b.textBytes := by
  rw [compareScalars_others (.inl (number?_of_string ha)), ha, hb]
  rfl

theorem compare_strings {a b : Value} (ha : a.isStringLike = true) (hb : b.isStringLike = true) :
    a.compare D b = compareBytes a.textBytes b.textBytes := by
  have hparts : compareParts D a b = .eq := by
    refine compareParts_others ?_ ?_
    · rintro l r rfl -
      cases ha
    · rintro l r rfl -
      cases ha
  rw [compare_eq, compareScalars_strings ha hb, hparts, Ordering.then_eq]

/-- A token is no container. -/
theorem compareParts_ofToken (s : Token) (v : Value) : compareParts D (ofToken s) v = .eq := by
  unfold ofToken
  repeat' split
  all_goals rfl

theorem compare_ofToken (s t : Token) :
    (ofToken s).compare D (ofToken t) = compareScalars D (ofToken s) (ofToken t) := by
  rw [compare_eq, compareParts_ofToken, Ordering.then_eq]

/-- **Strings stand for their texts.** Unescaping undoes every spelling of a text; and two strings
    of documents that are UTF-8 lie as the bytes of their unescaped texts do. -/
theorem strings_stand_for_texts (D : Decimals) :
    (∀ body text : List Char, Text.Spells body text →
      unescaped (String.ofList body) = String.ofList text) ∧
    ∀ (data data' : Bytes) (pos pos' : Nat) (t t' : Token) (s s' : String),
      Token.Next data pos t → t.kind.isString = true → Utf8.text? t.body = some s →
      Token.Next data' pos' t' → t'.kind.isString = true → Utf8.text? t'.body = some s' →
        (ofToken t).compare D (ofToken t') =
          List.compareLex Ord.compare (Utf8.bytes (unescaped s)) (Utf8.bytes (unescaped s')) := by
  constructor
  · intro body text h
    rw [unescaped, String.toList_ofList, h.unescape]
  · intro data data' pos pos' t t' s s' h hs hu h' hs' hu'
    obtain ⟨hlike, hbytes⟩ := ofToken_string h hs hu
    obtain ⟨hlike', hbytes'⟩ := ofToken_string h' hs' hu'
    rw [compare_strings hlike hlike', hbytes, hbytes']
    rfl

/-- The face that is two code units, and two spellings of one letter. -/
theorem strings_stand_for_texts_letter :
    unescaped (String.ofList ['\\', 'u', 'D', '8', '3', 'D', '\\', 'u', 'd', 'e', '0', '0']) =
        String.ofList ['😀'] ∧
      (ofToken ⟨.escString, 0, Utf8.encode "\"\\u0041\"".toList⟩).compare .standard
          (ofToken ⟨.string, 1, Utf8.encode "\"A\"".toList⟩) =
        List.compareLex Ord.compare (Utf8.bytes (unescaped "\\u0041"))
          (Utf8.bytes (unescaped "A")) := by
  have hhigh : 0xD800 + ('😀'.toNat - 0x10000) / 0x400 = 0xD83D := by decide
  have hlow : 0xDC00 + ('😀'.toNat - 0x10000) % 0x400 = 0xDE00 := by decide
  have high : Text.CodeUnit 0xD83D ['D', '8', '3', 'D'] :=
    @Text.CodeUnit.mk 0xD 8 3 0xD _ _ _ _ (.inr rfl) (.inr rfl) (.inr rfl) (.inr rfl)
  have low : Text.CodeUnit 0xDE00 ['d', 'e', '0', '0'] :=
    @Text.CodeUnit.mk 0xD 0xE 0 0 _ _ _ _ (.inl rfl) (.inl rfl) (.inl rfl) (.inl rfl)
  have hpair : Text.Spells
      ('\\' :: 'u' :: (['D', '8', '3', 'D'] ++ '\\' :: 'u' :: (['d', 'e', '0', '0'] ++ [])))
      ['😀'] := .pair (by decide) (hhigh ▸ high) (hlow ▸ low) .nil
  refine ⟨(strings_stand_for_texts .standard).1 _ _ hpair, ?_⟩
  exact (strings_stand_for_texts .standard).2 (Utf8.encode "\"\\u0041\"".toList)
    (Utf8.encode " \"A\"".toList) 0 0 _ _ _ _ ⟨[], rfl⟩ rfl
    (Utf8.text?_eq_some_iff.mpr rfl) ⟨[], rfl⟩ rfl (Utf8.text?_eq_some_iff.mpr rfl)

end Value

end Sift
