import Sift.Unicode.CharSet

/-!
# Sets of characters as sequences of bytes

An automaton reads texts byte by byte, so a set of characters is to it a list of sequences of
ranges of bytes: a character is in the set when its bytes are in the ranges of one of the
sequences, each in its own.

A character takes one to four bytes. Among those that take the same number, all but the first byte
are digits of base 64 above 0x80, so a range of characters is cut up like a range of numbers: a
whole block of a power of 64 is one sequence.
-/

namespace Sift.Pattern

open Unicode (CharSet)

/-- A range of bytes, both ends included. -/
abbrev ByteRange := Nat × Nat

namespace Encoded

/-- The numbers from `low` to `high` as sequences of ranges of digits of base 64, a first one of any
    size and `count` more. -/
def blocks : (count low high : Nat) → List (List ByteRange)
  | 0, low, high => [[(low, high)]]
  | count + 1, low, high =>
    let unit := Nat.pow 64 (count + 1)
    let a := low / unit
    let b := high / unit
    if a = b then (blocks count (low % unit) (high % unit)).map ((a, a) :: ·)
    else
      let partOfFirst := low % unit ≠ 0
      let partOfLast := high % unit ≠ unit - 1
      let first := if partOfFirst then (blocks count (low % unit) (unit - 1)).map ((a, a) :: ·) else []
      let last := if partOfLast then (blocks count 0 (high % unit)).map ((b, b) :: ·) else []
      let a := if partOfFirst then a + 1 else a
      let b := if partOfLast then b - 1 else b
      let whole := if a ≤ b then [(a, b) :: List.replicate (count + 1) (0, 63)] else []
      first ++ whole ++ last

/-- The lengths of encoded characters: the first and the last character of a length, how many bytes
    follow the first, and what is added to that. -/
def lengths : List (Nat × Nat × Nat × Nat) :=
  [(0, 0x7F, 0, 0), (0x80, 0x7FF, 1, 0xC0), (0x800, 0xFFFF, 2, 0xE0), (0x10000, 0x10FFFF, 3, 0xF0)]

/-- The sequences of the characters from `low` to `high`. -/
def ofRange (low high : Nat) : List (List ByteRange) :=
  lengths.flatMap fun (first, last, count, lead) =>
    let low := max low first
    let high := min high last
    if low ≤ high then
      (blocks count low high).map fun
        | [] => []
        | (a, b) :: rest => (a + lead, b + lead) :: rest.map fun (a, b) => (a + 0x80, b + 0x80)
    else []

/-- The bytes of a text. -/
def ofText (cs : List Char) : List Nat :=
  cs.flatMap fun c => (String.utf8EncodeChar c).map (·.toNat)

/-- The sequences of a set, in the order of the characters. -/
def ofSet (s : CharSet) : List (List ByteRange) := s.ranges.flatMap fun (a, b) => ofRange a b

end Encoded

end Sift.Pattern
