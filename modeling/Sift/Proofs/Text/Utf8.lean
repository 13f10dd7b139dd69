import Sift.Text.Utf8

/-!
# Texts and their bytes

Reading and writing UTF-8 undo one another (`Utf8.decode?_eq_some_iff`): bytes are read as a text
exactly if they are what the text is written as. A text can be cut where a byte of seven bits begins
(`encode_cut`), as no other character has such a byte.

A character is read by the number that it is. `sequence?_tail` says what one more byte of it adds to
the number, and `sequence?_cons` that there is no other way to read one.
-/

namespace Sift.Utf8

variable {least k n : Nat} {b : UInt8} {c : Char} {bytes rest : Bytes}

/-! ## 1. Numbers -/

theorem toNat_ofNat_of_valid (h : n.isValidChar) : (Char.ofNat n).toNat = n := by
  unfold Char.ofNat
  rw [dif_pos h]
  rfl

theorem toNat_lt (c : Char) : c.toNat < 0x110000 := by
  rcases c.valid with h | h
  · exact Nat.lt_trans h (by decide)
  · exact h.2

theorem isTail_iff : isTail b = true ↔ 0x80 ≤ b.toNat ∧ b.toNat < 0xC0 := by
  rw [isTail, Bool.and_eq_true, decide_eq_true_iff, decide_eq_true_iff, UInt8.le_iff_toNat_le,
    UInt8.lt_iff_toNat_lt]
  rfl

/-- A byte that is not the first of its character adds six bits. -/
theorem sequence?_tail (m : Nat) : sequence? least (k + 1) n (.ofNat (m % 0x40 + 0x80) :: rest) =
    sequence? least k (n * 64 + m % 0x40) rest := by
  have htoNat : (UInt8.ofNat (m % 0x40 + 0x80)).toNat = m % 0x40 + 0x80 := by
    rw [UInt8.toNat_ofNat']
    omega
  rw [sequence?, if_pos (isTail_iff.mpr (by omega)), htoNat, Nat.add_sub_cancel]

/-- The last byte of a character makes it known. -/
theorem sequence?_last (hn : c.toNat = n) (hle : least ≤ n) :
    sequence? least 0 n rest = some (c, rest) := by
  subst hn
  rw [sequence?, scalar?, if_pos ⟨hle, c.valid⟩]
  exact congrArg (fun c => some (c, rest)) c.ofNat_toNat

theorem sequence?_cons (h : sequence? least (k + 1) n bytes = some (c, rest)) :
    ∃ b more, bytes = b :: more ∧ 0x80 ≤ b.toNat ∧ b.toNat < 0xC0 ∧
      sequence? least k (n * 64 + (b.toNat - 0x80)) more = some (c, rest) := by
  cases bytes with
  | nil => cases h
  | cons b more =>
    rw [sequence?] at h
    split at h
    · next hb =>
      obtain ⟨hle, hlt⟩ := isTail_iff.mp hb
      exact ⟨b, more, rfl, hle, hlt, h⟩
    · cases h

theorem sequence?_zero (h : sequence? least 0 n bytes = some (c, rest)) :
    c.toNat = n ∧ least ≤ n ∧ bytes = rest := by
  obtain ⟨c', hc, heq⟩ := Option.map_eq_some_iff.mp h
  cases heq
  unfold scalar? at hc
  split at hc
  · next hn =>
    cases hc
    exact ⟨toNat_ofNat_of_valid hn.2, hn.1, rfl⟩
  · cases hc

/-- How a character is read by its first byte. -/
theorem decodeChar?_cons (a : UInt8) : decodeChar? (a :: rest) =
    if a.toNat < 0x80 then some (Char.ofNat a.toNat, rest)
    else if a.toNat < 0xC0 then none
    else if a.toNat < 0xE0 then sequence? 0x80 1 (a.toNat - 0xC0) rest
    else if a.toNat < 0xF0 then sequence? 0x800 2 (a.toNat - 0xE0) rest
    else if a.toNat < 0xF8 then sequence? 0x10000 3 (a.toNat - 0xF0) rest
    else none := by
  simp only [decodeChar?, UInt8.lt_iff_toNat_lt]
  rfl

/-- How a character is written by its number. -/
theorem encodeChar_eq (c : Char) : String.utf8EncodeChar c =
    if c.toNat ≤ 0x7F then [.ofNat c.toNat]
    else if c.toNat ≤ 0x7FF then
      [.ofNat (c.toNat / 64 % 0x20 + 0xC0), .ofNat (c.toNat % 0x40 + 0x80)]
    else if c.toNat ≤ 0xFFFF then
      [.ofNat (c.toNat / 4096 % 0x10 + 0xE0), .ofNat (c.toNat / 64 % 0x40 + 0x80),
        .ofNat (c.toNat % 0x40 + 0x80)]
    else
      [.ofNat (c.toNat / 262144 % 0x08 + 0xF0), .ofNat (c.toNat / 4096 % 0x40 + 0x80),
        .ofNat (c.toNat / 64 % 0x40 + 0x80), .ofNat (c.toNat % 0x40 + 0x80)] := rfl

/-! ## 2. Characters -/

/-- **A character is read back.** -/
theorem decodeChar?_encode (c : Char) (rest : Bytes) :
    decodeChar? (String.utf8EncodeChar c ++ rest) = some (c, rest) := by
  have hmax := toNat_lt c
  have hfirst {x : Nat} (hx : x < 256) : (UInt8.ofNat x).toNat = x := by
    rw [UInt8.toNat_ofNat']
    omega
  rw [encodeChar_eq]
  split
  · rw [List.cons_append, decodeChar?_cons, hfirst (by omega), if_pos (by omega), c.ofNat_toNat]
    rfl
  · split
    · rw [List.cons_append, decodeChar?_cons, hfirst (by omega), if_neg (by omega),
        if_neg (by omega), if_pos (by omega), List.cons_append, List.nil_append, sequence?_tail]
      exact sequence?_last (by omega) (by omega)
    · split
      · rw [List.cons_append, decodeChar?_cons, hfirst (by omega), if_neg (by omega),
          if_neg (by omega), if_neg (by omega), if_pos (by omega)]
        simp only [List.cons_append, List.nil_append, sequence?_tail]
        exact sequence?_last (by omega) (by omega)
      · rw [List.cons_append, decodeChar?_cons, hfirst (by omega), if_neg (by omega),
          if_neg (by omega), if_neg (by omega), if_neg (by omega), if_pos (by omega)]
        simp only [List.cons_append, List.nil_append, sequence?_tail]
        exact sequence?_last (by omega) (by omega)

/-- A byte is the one of a number if it is that number. -/
theorem ofNat_eq_of_toNat {x : UInt8} {m : Nat} (h : m = x.toNat) : UInt8.ofNat m = x := by
  rw [h, UInt8.ofNat_toNat]

/-- The two bytes of a character are those of its number. -/
theorem encode_of_two {a : UInt8} (ha : 0xC0 ≤ a.toNat) (ha' : a.toNat < 0xE0)
    (h : sequence? 0x80 1 (a.toNat - 0xC0) bytes = some (c, rest)) :
    a :: bytes = String.utf8EncodeChar c ++ rest := by
  obtain ⟨b, more, rfl, hb, hb', h⟩ := sequence?_cons h
  obtain ⟨hn, hle, rfl⟩ := sequence?_zero h
  rw [encodeChar_eq, if_neg (by omega), if_pos (by omega), ofNat_eq_of_toNat (x := a) (by omega),
    ofNat_eq_of_toNat (x := b) (by omega)]
  rfl

/-- The same of three bytes. -/
theorem encode_of_three {a : UInt8} (ha : 0xE0 ≤ a.toNat) (ha' : a.toNat < 0xF0)
    (h : sequence? 0x800 2 (a.toNat - 0xE0) bytes = some (c, rest)) :
    a :: bytes = String.utf8EncodeChar c ++ rest := by
  obtain ⟨b, more, rfl, hb, hb', h⟩ := sequence?_cons h
  obtain ⟨d, more, rfl, hd, hd', h⟩ := sequence?_cons h
  obtain ⟨hn, hle, rfl⟩ := sequence?_zero h
  rw [encodeChar_eq, if_neg (by omega), if_neg (by omega), if_pos (by omega),
    ofNat_eq_of_toNat (x := a) (by omega), ofNat_eq_of_toNat (x := b) (by omega),
    ofNat_eq_of_toNat (x := d) (by omega)]
  rfl

/-- The same of four bytes. -/
theorem encode_of_four {a : UInt8} (ha : 0xF0 ≤ a.toNat) (ha' : a.toNat < 0xF8)
    (h : sequence? 0x10000 3 (a.toNat - 0xF0) bytes = some (c, rest)) :
    a :: bytes = String.utf8EncodeChar c ++ rest := by
  have hmax := toNat_lt c
  obtain ⟨b, more, rfl, hb, hb', h⟩ := sequence?_cons h
  obtain ⟨d, more, rfl, hd, hd', h⟩ := sequence?_cons h
  obtain ⟨e, more, rfl, he, he', h⟩ := sequence?_cons h
  obtain ⟨hn, hle, rfl⟩ := sequence?_zero h
  rw [encodeChar_eq, if_neg (by omega), if_neg (by omega), if_neg (by omega),
    ofNat_eq_of_toNat (x := a) (by omega), ofNat_eq_of_toNat (x := b) (by omega),
    ofNat_eq_of_toNat (x := d) (by omega), ofNat_eq_of_toNat (x := e) (by omega)]
  rfl

/-- **What is read as a character is what it is written as.** -/
theorem encode_of_decodeChar? (h : decodeChar? bytes = some (c, rest)) :
    bytes = String.utf8EncodeChar c ++ rest := by
  cases bytes with
  | nil => cases h
  | cons a more =>
    rw [decodeChar?_cons] at h
    split at h
    · next ha =>
      have hc : (Char.ofNat a.toNat).toNat = a.toNat :=
        toNat_ofNat_of_valid (.inl (Nat.lt_trans ha (by decide)))
      cases h
      rw [encodeChar_eq, hc, if_pos (by omega), UInt8.ofNat_toNat]
      rfl
    · split at h
      · cases h
      · split at h
        · exact encode_of_two (by omega) (by omega) h
        · split at h
          · exact encode_of_three (by omega) (by omega) h
          · split at h
            · exact encode_of_four (by omega) (by omega) h
            · cases h

/-! ## 3. Texts -/

theorem decode?_of_decodeChar? (h : decodeChar? bytes = some (c, rest)) :
    decode? bytes = (decode? rest).map (c :: ·) := by
  rw [decode?]
  split
  · next h' =>
    rw [h] at h'
    cases h'
    rfl
  · next h' =>
    rw [h] at h'
    cases h'

theorem decode?_of_none (h : decodeChar? bytes = none) :
    decode? bytes = if bytes.isEmpty then some [] else none := by
  rw [decode?]
  split
  · next h' =>
    rw [h] at h'
    cases h'
  · rfl

/-- **A text is read back.** -/
theorem decode?_encode : ∀ s : List Char, decode? (encode s) = some s
  | [] => by rw [encode_nil, decode?]; rfl
  | c :: s => by
    rw [encode_cons, decode?_of_decodeChar? (decodeChar?_encode c _), decode?_encode s]
    rfl

/-- **What is read as a text is what it is written as.** -/
theorem decode?_eq_some_iff {s : List Char} : decode? bytes = some s ↔ encode s = bytes := by
  refine ⟨fun h => ?_, fun h => h ▸ decode?_encode s⟩
  induction bytes using decode?.induct generalizing s with
  | case1 bytes c rest hread ih =>
    rw [decode?_of_decodeChar? hread] at h
    obtain ⟨more, hmore, rfl⟩ := Option.map_eq_some_iff.mp h
    rw [encode_cons, ih hmore, encode_of_decodeChar? hread]
  | case2 bytes hread hempty =>
    rw [decode?_of_none hread, if_pos hempty] at h
    cases h
    exact (List.isEmpty_iff.mp hempty).symm
  | case3 bytes hread hempty =>
    rw [decode?_of_none hread, if_neg hempty] at h
    cases h

theorem text?_eq_some_iff {s : String} : text? bytes = some s ↔ Utf8.bytes s = bytes := by
  rw [text?, Option.map_eq_some_iff, Utf8.bytes]
  constructor
  · rintro ⟨chars, h, rfl⟩
    rw [String.toList_ofList]
    exact decode?_eq_some_iff.mp h
  · intro h
    exact ⟨s.toList, decode?_eq_some_iff.mpr h, String.ofList_toList⟩

/-! ## 4. Parts of a text -/

theorem encode_append (s t : List Char) : encode (s ++ t) = encode s ++ encode t :=
  List.flatMap_append

/-- A character of seven bits is one byte. -/
theorem encodeChar_ascii (h : c.toNat < 0x80) : String.utf8EncodeChar c = [.ofNat c.toNat] := by
  rw [encodeChar_eq, if_pos (by omega)]

/-- All bytes of any other character have the eighth bit. -/
theorem le_of_mem_encodeChar (h : 0x80 ≤ c.toNat) (hb : b ∈ String.utf8EncodeChar c) :
    0x80 ≤ b := by
  have hmax := toNat_lt c
  have high {x : Nat} (hle : 0x80 ≤ x) (hlt : x < 256) : 0x80 ≤ UInt8.ofNat x := by
    rw [UInt8.le_iff_toNat_le, UInt8.toNat_ofNat', Nat.mod_eq_of_lt hlt]
    exact hle
  rw [encodeChar_eq, if_neg (by omega)] at hb
  split at hb
  · simp only [List.mem_cons, List.not_mem_nil, or_false] at hb
    rcases hb with rfl | rfl <;> exact high (by omega) (by omega)
  · split at hb
    · simp only [List.mem_cons, List.not_mem_nil, or_false] at hb
      rcases hb with rfl | rfl | rfl <;> exact high (by omega) (by omega)
    · simp only [List.mem_cons, List.not_mem_nil, or_false] at hb
      rcases hb with rfl | rfl | rfl | rfl <;> exact high (by omega) (by omega)

/-- A character of a text has its bytes there. -/
theorem mem_encode {s : List Char} (hc : c ∈ s) (hb : b ∈ String.utf8EncodeChar c) :
    b ∈ encode s :=
  List.mem_flatMap.mpr ⟨c, hc, hb⟩

/-- **A text can be cut at a byte of seven bits**, which is a character of its own. -/
theorem encode_cut (hb : b < 0x80) : ∀ {s : List Char} {before after : Bytes},
    encode s = before ++ b :: after →
      ∃ t c u, s = t ++ c :: u ∧ encode t = before ∧ String.utf8EncodeChar c = [b] ∧
        encode u = after
  | [], before, after, h => by
    rw [encode_nil] at h
    exact absurd h.symm (List.append_ne_nil_of_right_ne_nil _ (List.cons_ne_nil _ _))
  | c :: s, before, after, h => by
    rw [encode_cons] at h
    rcases List.append_eq_append_iff.mp h with ⟨rest, rfl, hs⟩ | ⟨rest, hc, hs⟩
    · obtain ⟨t, x, u, rfl, rfl, hx, hu⟩ := encode_cut hb hs
      exact ⟨c :: t, x, u, rfl, rfl, hx, hu⟩
    · cases rest with
      | nil =>
        have hs : encode s = [] ++ b :: after := hs.symm
        obtain ⟨t, x, u, rfl, ht, hx, hu⟩ := encode_cut hb hs
        refine ⟨c :: t, x, u, rfl, ?_, hx, hu⟩
        rw [encode_cons, hc, ht, List.append_nil, List.append_nil]
      | cons x more =>
        -- the byte is one of the character, which therefore has no other
        obtain ⟨rfl, rfl⟩ := List.cons.inj hs
        have hmem : b ∈ String.utf8EncodeChar c := by rw [hc]; simp
        have hascii : c.toNat < 0x80 := Nat.lt_of_not_le fun hge =>
          UInt8.not_le.mpr hb (le_of_mem_encodeChar hge hmem)
        have hlen := congrArg List.length ((encodeChar_ascii hascii).symm.trans hc)
        simp only [List.length_append, List.length_cons, List.length_nil] at hlen
        obtain rfl := List.eq_nil_of_length_eq_zero (show before.length = 0 by omega)
        obtain rfl := List.eq_nil_of_length_eq_zero (show more.length = 0 by omega)
        exact ⟨[], c, s, rfl, rfl, hc, rfl⟩

/-- A text that begins with the bytes of another one begins with that one. -/
theorem encode_eq_append : ∀ {s t : List Char}, encode s = encode t ++ rest →
    ∃ u, s = t ++ u ∧ rest = encode u
  | s, [], h => ⟨s, rfl, h.symm⟩
  | [], d :: t, h => by
    have hread := decodeChar?_encode d (encode t ++ rest)
    rw [← List.append_assoc, ← encode_cons, ← h] at hread
    cases hread
  | c :: s, d :: t, h => by
    have hread := decodeChar?_encode d (encode t ++ rest)
    rw [← List.append_assoc, ← encode_cons, ← h, encode_cons, decodeChar?_encode] at hread
    obtain ⟨rfl, hmore⟩ := Prod.mk.inj (Option.some.inj hread)
    obtain ⟨u, rfl, hrest⟩ := encode_eq_append hmore
    exact ⟨u, rfl, hrest⟩

/-- The byte of a backslash is in no other character. -/
theorem backslash_not_mem (hc : c ≠ '\\') : '\\'.toUInt8 ∉ String.utf8EncodeChar c := by
  intro hb
  rcases Nat.lt_or_ge c.toNat 0x80 with hlt | hge
  · rw [encodeChar_ascii hlt, List.mem_singleton] at hb
    have htoNat := congrArg UInt8.toNat hb
    rw [UInt8.toNat_ofNat'] at htoNat
    have hnat : c.toNat = 92 := by
      have hbyte : '\\'.toUInt8.toNat = 92 := rfl
      omega
    exact hc (by rw [← c.ofNat_toNat, hnat])
  · exact absurd (le_of_mem_encodeChar hge hb) (by decide)

/-- Only the first byte of a character is no tail. -/
theorem encodeChar_eq_cons (c : Char) : ∃ a tails, String.utf8EncodeChar c = a :: tails ∧
    isTail a = false ∧ ∀ b ∈ tails, isTail b = true := by
  have hmax := toNat_lt c
  have head {n : Nat} (h : n < 0x80 ∨ 0xC0 ≤ n ∧ n < 0x100) : isTail (UInt8.ofNat n) = false := by
    rw [Bool.eq_false_iff, ne_eq, isTail_iff, UInt8.toNat_ofNat']
    omega
  have tail (n : Nat) : isTail (UInt8.ofNat (n % 0x40 + 0x80)) = true := by
    rw [isTail_iff, UInt8.toNat_ofNat']
    omega
  have nil : ∀ b ∈ ([] : Bytes), isTail b = true := fun _ h => absurd h List.not_mem_nil
  have cons {a : UInt8} {tails : Bytes} (ha : isTail a = true)
      (htails : ∀ b ∈ tails, isTail b = true) : ∀ b ∈ a :: tails, isTail b = true := fun b hb =>
    (List.mem_cons.mp hb).elim (fun hba => hba ▸ ha) (htails b)
  rw [encodeChar_eq]
  split
  · exact ⟨_, _, rfl, head (by omega), nil⟩
  · split
    · exact ⟨_, _, rfl, head (by omega), cons (tail _) nil⟩
    · split
      · exact ⟨_, _, rfl, head (by omega), cons (tail _) (cons (tail _) nil)⟩
      · exact ⟨_, _, rfl, head (by omega), cons (tail _) (cons (tail _) (cons (tail _) nil))⟩

theorem encodeChar_ne_nil (c : Char) : String.utf8EncodeChar c ≠ [] := by
  obtain ⟨a, tails, h, -⟩ := encodeChar_eq_cons c
  rw [h]
  exact List.cons_ne_nil a tails

end Sift.Utf8
