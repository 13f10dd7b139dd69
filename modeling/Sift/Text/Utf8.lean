/-!
# UTF-8

Documents are bytes, and nothing promises that they are UTF-8. This file is the boundary between
bytes and text:

* `Utf8.encode` writes a text, `Utf8.decode?` reads it back and answers `none` on anything else;
* `Utf8.decodeChar?` reads the one character that bytes start with, which is how an error names
  the character it met;
* `Utf8.decodeLossy` reads any bytes, with one U+FFFD for each part that is not UTF-8.
-/

namespace Sift

/-- A document, or a part of one, as it is held: bytes, UTF-8 or not. -/
abbrev Bytes := List UInt8

namespace Utf8

/-! ## 1. Writing -/

/-- The bytes of a text, character by character. -/
def encode (s : List Char) : Bytes := s.flatMap String.utf8EncodeChar

@[simp] theorem encode_nil : encode [] = [] := rfl

@[simp] theorem encode_cons (c : Char) (s : List Char) :
    encode (c :: s) = String.utf8EncodeChar c ++ encode s := rfl

/-! ## 2. Reading one character -/

/-- A continuation byte is one of the 64 from `0x80`. -/
def isTail (b : UInt8) : Bool := 0x80 ≤ b && b < 0xC0

/-- The character a sequence spells by the number `n`. The number must need so long a sequence,
    that is, reach `least`, and surrogates are no characters. -/
def scalar? (least n : Nat) : Option Char :=
  if least ≤ n ∧ n.isValidChar then some (Char.ofNat n) else none

/-- Reads the last `k` bytes of a sequence whose earlier bytes spell `n`. -/
def sequence? (least : Nat) : (k n : Nat) → Bytes → Option (Char × Bytes)
  | 0, n, rest => (scalar? least n).map (·, rest)
  | _ + 1, _, [] => none
  | k + 1, n, b :: rest =>
    if isTail b then sequence? least k (n * 64 + (b.toNat - 0x80)) rest else none

/-- The character that `bytes` start with, and what follows it. -/
def decodeChar? : Bytes → Option (Char × Bytes)
  | [] => none
  | a :: rest =>
    if a < 0x80 then some (Char.ofNat a.toNat, rest)
    else if a < 0xC0 then none
    else if a < 0xE0 then sequence? 0x80 1 (a.toNat - 0xC0) rest
    else if a < 0xF0 then sequence? 0x800 2 (a.toNat - 0xE0) rest
    else if a < 0xF8 then sequence? 0x10000 3 (a.toNat - 0xF0) rest
    else none

/-- The rest of a sequence is not longer than what was read. -/
theorem sequence?_length {least : Nat} : ∀ {k n : Nat} {bytes rest : Bytes} {c : Char},
    sequence? least k n bytes = some (c, rest) → rest.length ≤ bytes.length
  | 0, n, bytes, rest, c, h => by
    obtain ⟨_, _, h⟩ := Option.map_eq_some_iff.1 h
    cases h
    exact Nat.le_refl _
  | _ + 1, _, [], _, _, h => by simp [sequence?] at h
  | k + 1, n, b :: bytes, rest, c, h => by
    unfold sequence? at h
    split at h
    · exact Nat.le_succ_of_le (sequence?_length h)
    · cases h

/-- **Reading a character uses up a byte.** -/
theorem decodeChar?_length {bytes rest : Bytes} {c : Char}
    (h : decodeChar? bytes = some (c, rest)) : rest.length < bytes.length := by
  match bytes with
  | [] => simp [decodeChar?] at h
  | a :: tail =>
    refine Nat.lt_succ_of_le ?_
    rw [decodeChar?] at h
    split at h
    · cases h
      exact Nat.le_refl _
    · split at h
      · exact absurd h (by simp)
      · split at h
        · exact sequence?_length h
        · split at h
          · exact sequence?_length h
          · split at h
            · exact sequence?_length h
            · exact absurd h (by simp)

/-! ## 3. Reading a text -/

/-- The characters that `bytes` spell, if they are UTF-8. -/
def decode? (bytes : Bytes) : Option (List Char) :=
  match _read : decodeChar? bytes with
  | some (c, rest) => (decode? rest).map (c :: ·)
  | none => if bytes.isEmpty then some [] else none
termination_by bytes.length
decreasing_by exact decodeChar?_length ‹_›

/-- The text that `bytes` spell, if they are UTF-8. -/
def text? (bytes : Bytes) : Option String := (decode? bytes).map String.ofList

/-- The bytes of a text. -/
def bytes (s : String) : Bytes := encode s.toList

/-! ## 4. Reading what may not be text -/

/-- The range in which the byte after `a` keeps the sequence open to a character. -/
def second (a : UInt8) : UInt8 × UInt8 :=
  if a = 0xE0 then (0xA0, 0xBF)
  else if a = 0xED then (0x80, 0x9F)
  else if a = 0xF0 then (0x90, 0xBF)
  else if a = 0xF4 then (0x80, 0x8F)
  else (0x80, 0xBF)

/-- How many bytes follow the first byte `a` of a sequence. -/
def tails (a : UInt8) : Nat :=
  if 0xC2 ≤ a && a < 0xE0 then 1
  else if 0xE0 ≤ a && a < 0xF0 then 2
  else if 0xF0 ≤ a && a < 0xF5 then 3
  else 0

/-- What is left after one part that is no character: the longest beginning of a sequence that
    some character could still complete, and one byte where there is none. -/
def dropBroken : Bytes → Bytes
  | [] => []
  | a :: rest =>
    match tails a, rest with
    | k + 1, b :: more =>
      if (second a).1 ≤ b && b ≤ (second a).2 then
        more.drop ((more.take k).takeWhile isTail).length
      else rest
    | _, _ => rest

theorem dropBroken_length : ∀ (bytes : Bytes), bytes ≠ [] →
    (dropBroken bytes).length < bytes.length
  | [], h => absurd rfl h
  | a :: rest, _ => by
    simp only [dropBroken]
    split
    · split
      · simp only [List.length_drop, List.length_cons]
        omega
      · exact Nat.lt_succ_self _
    · exact Nat.lt_succ_self _

/-- The text of any bytes: what is UTF-8 is read, and each part that is not stands as U+FFFD. -/
def decodeLossy (bytes : Bytes) : List Char :=
  match _read : decodeChar? bytes with
  | some (c, rest) => c :: decodeLossy rest
  | none =>
    if _empty : bytes = [] then [] else Char.ofNat 0xFFFD :: decodeLossy (dropBroken bytes)
termination_by bytes.length
decreasing_by
  · exact decodeChar?_length ‹_›
  · exact dropBroken_length bytes ‹_›

end Utf8

end Sift
