import Sift.Proofs.Value.Strings

/-!
# Strings that need not be UTF-8

A string may hold every byte from 0x20 on, in any order. It stands for bytes all the same
(`Text.StandsFor`): an escape for the UTF-8 of its character, every other byte for itself.

* Escapes are resolved in strings that are UTF-8, and only there: any other string is compared by
  its body as it is written (`textBytes_ofToken`).
* A body is UTF-8 if the bytes that it stands for are (`StandsFor.utf8_iff`). So two strings that
  stand for the same bytes are equal if these are UTF-8, and otherwise only if they are written the
  same (`equals_iff_of_same_bytes`).
-/

namespace Sift

/-! ## 1. What a body stands for -/

namespace Text

variable {b : UInt8} {c : Char} {esc rest : List Char} {body bytes : Bytes}

/-- One escape, and the character that it names. -/
inductive Escaped : List Char → Char → Prop
  | letter {letter c : Char} (names : (letter, c) ∈ letters) : Escaped ['\\', letter] c
  | unit {c : Char} {digits : List Char} (unit : CodeUnit c.toNat digits) :
      Escaped ('\\' :: 'u' :: digits) c
  | pair {c : Char} {high low : List Char} (above : 0x10000 ≤ c.toNat)
      (first : CodeUnit (0xD800 + (c.toNat - 0x10000) / 0x400) high)
      (second : CodeUnit (0xDC00 + (c.toNat - 0x10000) % 0x400) low) :
      Escaped ('\\' :: 'u' :: (high ++ '\\' :: 'u' :: low)) c

/-- **The body of a string stands for bytes.** An escape stands for its character in UTF-8, and
    every other byte for itself. Half a surrogate pair names no character and stands for nothing. -/
inductive StandsFor : (body bytes : Bytes) → Prop
  | nil : StandsFor [] []
  | raw {b : UInt8} {body bytes : Bytes} (backslash : b ≠ '\\'.toUInt8)
      (more : StandsFor body bytes) : StandsFor (b :: body) (b :: bytes)
  | escape {esc : List Char} {c : Char} {body bytes : Bytes} (names : Escaped esc c)
      (more : StandsFor body bytes) :
      StandsFor (Utf8.encode esc ++ body) (String.utf8EncodeChar c ++ bytes)

/-- An escape is read as its character. -/
theorem Escaped.next? (h : Escaped esc c) : Escape.next? (esc ++ rest) = some (some c, rest) := by
  cases h with
  | letter names => exact Escape.next?_letter names
  | unit unit => exact Escape.next?_u.trans (congrArg some (Escape.afterU_unit unit))
  | pair above first second =>
    simp only [List.cons_append, List.append_assoc]
    exact Escape.next?_u.trans (congrArg some (Escape.afterU_pair above first second))

/-- An escape begins with a backslash. -/
theorem Escaped.encode_eq (h : Escaped esc c) :
    ∃ more, esc = '\\' :: more ∧ Utf8.encode esc = '\\'.toUInt8 :: Utf8.encode more := by
  cases h <;> exact ⟨_, rfl, rfl⟩

namespace StandsFor

theorem of_nil (h : StandsFor [] bytes) : bytes = [] := by
  generalize hbody : ([] : Bytes) = body at h
  cases h with
  | nil => rfl
  | raw => cases hbody
  | escape names more =>
    obtain ⟨_, -, hesc⟩ := names.encode_eq
    rw [hesc] at hbody
    cases hbody

/-- A byte that is no backslash stands for itself. -/
theorem of_cons (hb : b ≠ '\\'.toUInt8) (h : StandsFor (b :: body) bytes) :
    ∃ bytes', bytes = b :: bytes' ∧ StandsFor body bytes' := by
  generalize hbody : b :: body = all at h
  cases h with
  | nil => cases hbody
  | raw backslash more =>
    obtain ⟨rfl, rfl⟩ := List.cons.inj hbody
    exact ⟨_, rfl, more⟩
  | escape names more =>
    obtain ⟨_, -, hesc⟩ := names.encode_eq
    rw [hesc] at hbody
    exact absurd (List.cons.inj hbody).1 hb

/-- And so do bytes without a backslash. -/
theorem of_append : ∀ {front bytes : Bytes}, '\\'.toUInt8 ∉ front →
    StandsFor (front ++ body) bytes → ∃ bytes', bytes = front ++ bytes' ∧ StandsFor body bytes'
  | [], bytes, _, h => ⟨bytes, rfl, h⟩
  | b :: front, bytes, hfront, h => by
    obtain ⟨_, rfl, more⟩ := of_cons (fun hb => hfront (hb ▸ List.mem_cons_self)) h
    obtain ⟨bytes, rfl, rest⟩ := of_append (fun hmem => hfront (List.mem_cons_of_mem b hmem)) more
    exact ⟨bytes, rfl, rest⟩

/-- A text that begins with a backslash begins with an escape. -/
theorem of_backslash {s : List Char} (h : StandsFor (Utf8.encode ('\\' :: s)) bytes) :
    ∃ esc c rest bytes', '\\' :: s = esc ++ rest ∧ Escaped esc c ∧
      bytes = String.utf8EncodeChar c ++ bytes' ∧ StandsFor (Utf8.encode rest) bytes' := by
  generalize hbody : Utf8.encode ('\\' :: s) = body at h
  cases h with
  | nil => cases hbody
  | raw backslash more => exact absurd (List.cons.inj hbody).1.symm backslash
  | escape names more =>
    obtain ⟨rest, hs, rfl⟩ := Utf8.encode_eq_append hbody
    exact ⟨_, _, rest, _, hs, names, rfl, more⟩

/-- **A body that is a text stands for the bytes of the unescaped text.** -/
theorem unescape : ∀ {s : List Char} {bytes : Bytes}, StandsFor (Utf8.encode s) bytes →
    bytes = Utf8.encode (Escape.unescape s)
  -- on the length of the text, as an escape is more than one of its characters
  | [], bytes, h => by
    rw [of_nil h, Escape.unescape_of_none rfl]
    rfl
  | c :: s, bytes, h => by
    by_cases hc : c = '\\'
    · subst hc
      obtain ⟨esc, c, rest, bytes, hs, names, rfl, more⟩ := of_backslash h
      have hshorter : rest.length < s.length + 1 := by
        obtain ⟨more, rfl, -⟩ := names.encode_eq
        rw [← List.length_cons, hs, List.length_append, List.length_cons]
        omega
      rw [hs, Escape.unescape_of_next? names.next?, Utf8.encode_cons, unescape more]
      rfl
    · rw [Utf8.encode_cons] at h
      obtain ⟨bytes, rfl, more⟩ := of_append (Utf8.backslash_not_mem hc) h
      rw [Escape.unescape_of_next? (Escape.next?_raw hc), Utf8.encode_cons, unescape more]
      rfl
termination_by s => s.length

/-- What is no first byte of a character is no part of an escape. -/
theorem of_tails : ∀ {tails body : Bytes}, (∀ b ∈ tails, Utf8.isTail b = true) →
    StandsFor body (tails ++ bytes) → ∃ body', body = tails ++ body' ∧ StandsFor body' bytes
  | [], body, _, h => ⟨body, rfl, h⟩
  | b :: tails, body, htails, h => by
    generalize hall : b :: tails ++ bytes = all at h
    cases h with
    | nil => cases hall
    | raw backslash more =>
      obtain ⟨rfl, rfl⟩ := List.cons.inj hall
      obtain ⟨body, rfl, rest⟩ := of_tails (fun b hb => htails b (List.mem_cons_of_mem _ hb)) more
      exact ⟨body, rfl, rest⟩
    | @escape _ c _ _ names more =>
      obtain ⟨a, _, hc, ha, -⟩ := Utf8.encodeChar_eq_cons c
      rw [hc] at hall
      rw [← (List.cons.inj hall).1, htails b List.mem_cons_self] at ha
      cases ha

/-- A text is stood for by a text. -/
theorem exists_text : ∀ {s : List Char} {body : Bytes}, StandsFor body (Utf8.encode s) →
    ∃ u, body = Utf8.encode u
  | [], body, h => by
    generalize hbytes : Utf8.encode [] = bytes at h
    cases h with
    | nil => exact ⟨[], rfl⟩
    | raw => cases hbytes
    | @escape _ c =>
      exact absurd (List.append_eq_nil_iff.mp hbytes.symm).1 (Utf8.encodeChar_ne_nil c)
  | c :: s, body, h => by
    generalize hbytes : Utf8.encode (c :: s) = bytes at h
    rw [Utf8.encode_cons] at hbytes
    cases h with
    | nil => exact absurd (List.append_eq_nil_iff.mp hbytes).1 (Utf8.encodeChar_ne_nil c)
    | raw backslash more =>
      obtain ⟨a, tails, hc, -, htails⟩ := Utf8.encodeChar_eq_cons c
      rw [hc] at hbytes
      obtain ⟨rfl, rfl⟩ := List.cons.inj hbytes
      obtain ⟨body, rfl, rest⟩ := of_tails htails more
      obtain ⟨u, rfl⟩ := exists_text rest
      exact ⟨c :: u, by rw [Utf8.encode_cons, hc]; rfl⟩
    | @escape esc d _ bytes names more =>
      have hread := Utf8.decodeChar?_encode d bytes
      rw [← hbytes, Utf8.decodeChar?_encode] at hread
      obtain ⟨-, rfl⟩ := Prod.mk.inj (Option.some.inj hread)
      obtain ⟨u, rfl⟩ := exists_text more
      exact ⟨esc ++ u, (Utf8.encode_append esc u).symm⟩

/-- **A body is UTF-8 if the bytes that it stands for are.** -/
theorem utf8_iff (h : StandsFor body bytes) :
    (Utf8.decode? body).isSome = true ↔ (Utf8.decode? bytes).isSome = true := by
  simp only [Option.isSome_iff_exists, Utf8.decode?_eq_some_iff]
  constructor
  · rintro ⟨s, rfl⟩
    exact ⟨_, h.unescape.symm⟩
  · rintro ⟨s, rfl⟩
    obtain ⟨u, rfl⟩ := h.exists_text
    exact ⟨u, rfl⟩

end StandsFor

end Text

/-! ## 2. Comparing -/

namespace Value

variable {D : Decimals} {data data' : Bytes} {pos pos' : Nat} {t t' : Token} {bytes bytes' : Bytes}

/-- A string that is not UTF-8 is kept as it is written. -/
theorem ofToken_bytes (hs : t.kind.isString = true) (hu : Utf8.text? t.body = none) :
    ofToken t = .byteString t.body := by
  unfold ofToken
  cases hk : t.kind <;> rw [hk] at hs <;> first
    | (simp only [hu]; done)
    | cases hs

theorem isAbsent_of_isStringLike {v : Value} (h : v.isStringLike = true) : v.isAbsent = false := by
  cases v <;> first
    | rfl
    | cases h

/-- **What a string is compared by**: the bytes that it stands for if they are UTF-8, and the body
    as it is written if they are not. -/
theorem textBytes_ofToken (h : Token.Next data pos t) (hs : t.kind.isString = true)
    (hstands : Text.StandsFor t.body bytes) : (ofToken t).isStringLike = true ∧
      (ofToken t).textBytes = if (Utf8.decode? bytes).isSome then bytes else t.body := by
  cases hu : Utf8.text? t.body with
  | some s =>
    obtain ⟨hlike, htext⟩ := ofToken_string h hs hu
    have hbody : Utf8.encode s.toList = t.body := Utf8.text?_eq_some_iff.mp hu
    have hutf8 : (Utf8.decode? t.body).isSome = true := by
      rw [← hbody, Utf8.decode?_encode]
      rfl
    rw [if_pos (hstands.utf8_iff.mp hutf8), htext, Utf8.bytes, unescaped, String.toList_ofList]
    rw [← hbody] at hstands
    exact ⟨hlike, hstands.unescape.symm⟩
  | none =>
    have hutf8 : ¬ (Utf8.decode? bytes).isSome = true := by
      rw [← hstands.utf8_iff, Option.not_isSome_iff_eq_none]
      exact Option.map_eq_none_iff.mp hu
    rw [if_neg hutf8, ofToken_bytes hs hu]
    exact ⟨rfl, rfl⟩

/-- **Strings compare by these bytes.** -/
theorem compare_ofToken_strings (h : Token.Next data pos t) (hs : t.kind.isString = true)
    (hstands : Text.StandsFor t.body bytes) (h' : Token.Next data' pos' t')
    (hs' : t'.kind.isString = true) (hstands' : Text.StandsFor t'.body bytes') :
    (ofToken t).compare D (ofToken t') =
      compareBytes (if (Utf8.decode? bytes).isSome then bytes else t.body)
        (if (Utf8.decode? bytes').isSome then bytes' else t'.body) := by
  obtain ⟨hlike, hbytes⟩ := textBytes_ofToken h hs hstands
  obtain ⟨hlike', hbytes'⟩ := textBytes_ofToken h' hs' hstands'
  rw [compare_strings hlike hlike', hbytes, hbytes']

/-- **Strings that stand for the same bytes** are equal if these are UTF-8. If not, they are equal
    only if they are written the same. -/
theorem equals_iff_of_same_bytes (h : Token.Next data pos t) (hs : t.kind.isString = true)
    (hstands : Text.StandsFor t.body bytes) (h' : Token.Next data' pos' t')
    (hs' : t'.kind.isString = true) (hstands' : Text.StandsFor t'.body bytes) :
    (ofToken t).equals D (ofToken t') = true ↔
      (Utf8.decode? bytes).isSome = true ∨ t.body = t'.body := by
  have hthere := isAbsent_of_isStringLike (textBytes_ofToken h hs hstands).1
  have hthere' := isAbsent_of_isStringLike (textBytes_ofToken h' hs' hstands').1
  rw [equals, hthere, hthere', Bool.not_false, Bool.true_and, Bool.true_and, beq_iff_eq,
    compare_ofToken_strings h hs hstands h' hs' hstands', Std.LawfulEqCmp.compare_eq_iff_eq]
  split
  · next hutf8 => exact iff_of_true rfl (.inl hutf8)
  · next hutf8 => exact ⟨.inr, fun heq => heq.resolve_left hutf8⟩

/-- The byte 0xff with a letter behind it, which is an escape once and raw once. -/
example : (ofToken ⟨.escString, 0, 0x22 :: 0xFF :: Utf8.encode "\\u0041\"".toList⟩).equals .standard
    (ofToken ⟨.string, 0, [0x22, 0xFF, 0x41, 0x22]⟩) = false := by decide +kernel

end Value

end Sift
