import Sift.Text.Decoded

/-!
# Strings byte by byte, and as a whole

A string that is read byte by byte gives the bytes of its text (`Decoded.bytes`): each byte that is
asked for is the first of those that are left (`next?_eq_none_iff`, `bytes_of_next?`). So the bytes
decide between two strings, as they lie in the lexicographic order (`Decoded.compare_eq`).
-/

namespace Sift.Text

namespace Escape

/-- A body is read from its beginning on. -/
theorem decode_of_next? {s rest : List Char} {c : Option Char} (h : next? s = some (c, rest)) :
    decode s = c :: decode rest := by
  rw [decode]
  split
  · next h' =>
    rw [h] at h'
    cases h'
    rfl
  · next h' =>
    rw [h] at h'
    cases h'

theorem decode_of_none {s : List Char} (h : next? s = none) : decode s = [] := by
  rw [decode]
  split
  · next h' =>
    rw [h] at h'
    cases h'
  · rfl

theorem unescape_of_next? {s rest : List Char} {c : Option Char} (h : next? s = some (c, rest)) :
    unescape s = c.getD replacement :: unescape rest := by
  rw [unescape, decode_of_next? h]
  rfl

theorem unescape_of_none {s : List Char} (h : next? s = none) : unescape s = [] := by
  rw [unescape, decode_of_none h]
  rfl

end Escape

namespace Decoded

/-- **The bytes that are left.** -/
def bytes : Decoded → Bytes
  | .raw rest => rest
  | .escaped body buffer => buffer ++ Utf8.encode (Escape.unescape body)

variable {s rest : Decoded} {b : UInt8}

/-- There is no next byte where none is left. -/
theorem bytes_of_none (h : s.next? = none) : s.bytes = [] := by
  unfold next? at h
  split at h
  · rfl
  · cases h
  · cases h
  · split at h
    · next hread => rw [bytes, Escape.unescape_of_none hread]; rfl
    · cases h

/-- **The next byte is the first of those that are left.** -/
theorem bytes_of_next? (h : s.next? = some (b, rest)) : s.bytes = b :: rest.bytes := by
  unfold next? at h
  split at h
  · cases h
  · cases h
    rfl
  · cases h
    rfl
  · split at h
    · cases h
    · next c more hread =>
      cases h
      rw [bytes, bytes, List.nil_append, Escape.unescape_of_next? hread, Utf8.encode_cons,
        ← List.cons_append, List.cons_head_tail]

variable {a a' b : Decoded} {x : UInt8}

theorem compare_of_none (h : a.next? = none) :
    a.compare b = if b.next?.isNone then .eq else .lt := by
  rw [compare]
  split
  · rfl
  · next h' =>
    rw [h] at h'
    cases h'

theorem compare_of_next? (h : a.next? = some (x, a')) :
    a.compare b =
      match b.next? with
      | none => .gt
      | some (y, b) => (Ord.compare x y).then (a'.compare b) := by
  rw [compare]
  split
  · next h' =>
    rw [h] at h'
    cases h'
  · next h' =>
    rw [h] at h'
    cases h'
    rfl

/-- **Two strings compare by their bytes.** -/
theorem compare_eq (a b : Decoded) : a.compare b = List.compareLex Ord.compare a.bytes b.bytes := by
  induction a, b using compare.induct with
  | case1 a b ha | case2 a b ha =>
    rw [compare_of_none ha, bytes_of_none ha]
    cases hb : b.next? with
    | none => rw [bytes_of_none hb]; rfl
    | some step => rw [bytes_of_next? hb]; rfl
  | case3 a b x a' ha hb =>
    rw [compare_of_next? ha, hb, bytes_of_next? ha, bytes_of_none hb]
    rfl
  | case4 a b x a' ha y b' hb ih =>
    rw [compare_of_next? ha, hb, bytes_of_next? ha, bytes_of_next? hb, List.compareLex_cons_cons,
      ← ih]

end Decoded

end Sift.Text
