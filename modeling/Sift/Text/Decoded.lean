import Sift.Text.Utf8
import Sift.Text.Escape

/-!
# Strings byte by byte

Two strings are compared by the bytes of the texts that they stand for, and these are asked for one
at a time, so that no text is made of a string with escapes. `Text.Decoded` is what is left of a
string on the way: bytes as they are, or a body whose escapes are still to be resolved with the bytes
of the character that was resolved last.
-/

namespace Sift.Text

/-- What is left of the bytes that a string stands for. -/
inductive Decoded
  /-- Bytes that stand for themselves. -/
  | raw (rest : Bytes)
  /-- A body with escapes, after those bytes of its last character that are still to be given. -/
  | escaped (body : List Char) (buffer : Bytes)

namespace Decoded

/-- A body with escapes, from its beginning. -/
def ofBody (body : String) : Decoded := .escaped body.toList []

/-- The next byte, and what is left after it. Where the buffer is empty, it is filled with the bytes
    of the next character. -/
def next? : Decoded → Option (UInt8 × Decoded)
  | .raw [] => none
  | .raw (b :: rest) => some (b, .raw rest)
  | .escaped body (b :: more) => some (b, .escaped body more)
  | .escaped body [] =>
    match Escape.next? body with
    | none => none
    | some (c, rest) =>
      let buffer := String.utf8EncodeChar (c.getD Escape.replacement)
      some (buffer.head String.utf8EncodeChar_ne_nil, .escaped rest buffer.tail)

/-- A bound on the bytes that are left. A character has at most four of them. -/
def size : Decoded → Nat
  | .raw rest => rest.length
  | .escaped body buffer => 4 * body.length + buffer.length

theorem next?_size {s rest : Decoded} {b : UInt8} (h : s.next? = some (b, rest)) :
    rest.size < s.size := by
  unfold next? at h
  split at h
  · cases h
  · cases h
    exact Nat.lt_succ_self _
  · cases h
    exact Nat.lt_succ_self _
  · split at h
    · cases h
    · rename_i c more hread
      have hbody := Escape.next?_length hread
      have hbuffer := Char.utf8Size_le_four (c.getD Escape.replacement)
      have hpos := Char.utf8Size_pos (c.getD Escape.replacement)
      cases h
      simp only [size, List.length_tail, String.length_utf8EncodeChar, List.length_nil]
      omega

/-- **The order of two strings**, byte by byte. The one that comes to its end first is the less. -/
def compare (a b : Decoded) : Ordering :=
  match _first : a.next? with
  | none => if b.next?.isNone then .eq else .lt
  | some (x, a) =>
    match b.next? with
    | none => .gt
    | some (y, b) => (Ord.compare x y).then (compare a b)
termination_by a.size
decreasing_by exact next?_size _first

end Decoded

end Sift.Text
