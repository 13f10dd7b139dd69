import Sift.Text.Escape

/-!
# Sets of characters

A set of characters is kept as its edges: the code points where membership changes, from the
least on. The first edge is the least member, the second the least greater code point that is no
member, and so on.

* `holds` says what is in a set;
* `combine` makes every Boolean operation one walk along two lists of edges;
* surrogates are no characters: no set has them, and complements are taken among the rest.
-/

namespace Sift.Unicode

/-- A set of characters. -/
structure CharSet where
  edges : List Nat
  deriving DecidableEq, Repr

namespace CharSet

/-! ## 1. Members -/

/-- Whether `n` is in a set whose edges from some place on are given, if `inside` tells whether
    what lies before the first of them is. -/
def holdsFrom : (inside : Bool) → List Nat → (n : Nat) → Bool
  | inside, [], _ => inside
  | inside, e :: rest, n => if n < e then inside else holdsFrom (!inside) rest n

/-- Whether the character with code point `n` is in the set. -/
def holds (s : CharSet) (n : Nat) : Bool := holdsFrom false s.edges n

/-- The ranges that edges enclose, the first and the last member of each. -/
def rangesOf : List Nat → List (Nat × Nat)
  | a :: b :: rest => (a, b - 1) :: rangesOf rest
  | _ => []

/-- The ranges of the set, the first and the last member of each. -/
def ranges (s : CharSet) : List (Nat × Nat) := rangesOf s.edges

/-- The only member of the set. -/
def single? (s : CharSet) : Option Nat :=
  match s.ranges with
  | [(a, b)] => if a = b then some a else none
  | _ => none

/-- Whether all members are of ASCII. -/
def isAscii (s : CharSet) : Bool := s.edges.all (· ≤ 0x80)

/-! ## 2. Operations -/

/-- The edges of what an operation makes of two sets, given the edges of both from some place on
    and whether what lies before is in either. -/
def merge (op : Bool → Bool → Bool) (a b : Bool) : List Nat → List Nat → List Nat
  | [], [] => []
  | x :: xs, [] => edge x (op a b) (op (!a) b) (merge op (!a) b xs [])
  | [], y :: ys => edge y (op a b) (op a (!b)) (merge op a (!b) [] ys)
  | x :: xs, y :: ys =>
    if x < y then edge x (op a b) (op (!a) b) (merge op (!a) b xs (y :: ys))
    else if y < x then edge y (op a b) (op a (!b)) (merge op a (!b) (x :: xs) ys)
    else edge x (op a b) (op (!a) (!b)) (merge op (!a) (!b) xs ys)
  termination_by xs ys => xs.length + ys.length
where
  /-- An edge, if something changes there. -/
  edge (x : Nat) (before after : Bool) (rest : List Nat) : List Nat :=
    if before = after then rest else x :: rest

/-- The set of what is, or is not, in either of two sets, as `op` says. -/
def combine (op : Bool → Bool → Bool) (s t : CharSet) : CharSet :=
  ⟨merge op false false s.edges t.edges⟩

/-- No character. -/
def empty : CharSet := ⟨[]⟩

/-- Every character. -/
def all : CharSet := ⟨[0, 0xD800, 0xE000, 0x110000]⟩

/-- What is in either set. -/
def union (s t : CharSet) : CharSet := combine (· || ·) s t

/-- What is in both sets. -/
def inter (s t : CharSet) : CharSet := combine (· && ·) s t

/-- What is in the first set and not in the second. -/
def diff (s t : CharSet) : CharSet := combine (fun a b => a && !b) s t

/-- What is in one of the two sets only. -/
def symm (s t : CharSet) : CharSet := combine xor s t

/-- What is not in the set. -/
def compl (s : CharSet) : CharSet := diff all s

/-- What is in any of several sets. -/
def unionAll (ss : List CharSet) : CharSet := ss.foldl union empty

/-! ## 3. Making sets -/

/-- The characters from `first` to `last`. -/
def range (first last : Nat) : CharSet :=
  if first ≤ last then inter all ⟨[first, last + 1]⟩ else empty

/-- One character. -/
def single (c : Char) : CharSet := range c.toNat c.toNat

/-- The characters of several ranges. -/
def ofRanges (rs : List (Nat × Nat)) : CharSet :=
  unionAll (rs.map fun (first, last) => range first last)

/-- The edges of the set of some numbers in ascending order. -/
def edgesOfSorted : List Nat → List Nat
  | [] => []
  | n :: rest =>
    match edgesOfSorted rest with
    | [] => [n, n + 1]
    | m :: more => if m = n then m :: more else if m = n + 1 then n :: more else n :: (n + 1) :: m :: more

/-- The characters with the given code points. -/
def ofList (ns : List Nat) : CharSet := inter all ⟨edgesOfSorted (ns.mergeSort (· ≤ ·))⟩

/-- A hexadecimal number. -/
def ofHex (s : String) : Nat :=
  s.toList.foldl (fun n c => n * 16 + (Text.hexDigit? c).getD 0) 0

/-- Reads a set from a table: code points and ranges in ascending order, in hexadecimal, with
    blanks between them. -/
def ofText (text : String) : CharSet :=
  ⟨(text.splitOn " ").flatMap fun item =>
    match item.splitOn "-" with
    | [one] => [ofHex one, ofHex one + 1]
    | first :: last :: _ => [ofHex first, ofHex last + 1]
    | [] => []⟩

/-- The characters of ASCII. -/
def ascii : CharSet := range 0 0x7F

end CharSet

end Sift.Unicode
