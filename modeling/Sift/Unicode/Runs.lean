import Sift.Unicode.CharSet

/-!
# Properties that are constant on runs

A Unicode property changes its value a few thousand times over a million code points, so it is
kept as the list of its runs. `Runs.ofText` reads a table written as text, run after run from
zero: a key of fixed width and the length of the run, which is left out where it is one.
`Runs.find?` searches it by halving, and `Runs.those` collects the characters with some of the
values.
-/

namespace Sift.Unicode

/-- The first code point of each run, in order, with the run's value. -/
structure Runs (α : Type) where
  starts : Array (Nat × α)

namespace Runs

variable {α : Type}

/-- What has been read of a table: the runs so far, where the next one starts, its key as read so
    far, and its length as read so far. -/
structure Reading (α : Type) where
  done : Array (Nat × α)
  start : Nat
  key : List Char
  length : Option Nat

namespace Reading

/-- The open run is complete. -/
def close (value : List Char → α) (r : Reading α) : Reading α :=
  if r.key.isEmpty then r
  else
    { done := r.done.push (r.start, value r.key), start := r.start + r.length.getD 1, key := [],
      length := none }

/-- One more character of the table. -/
def step (width : Nat) (value : List Char → α) (r : Reading α) (c : Char) : Reading α :=
  if c.isDigit then { r with length := some (r.length.getD 0 * 10 + (c.toNat - 0x30)) }
  else if r.key.length < width then { r with key := r.key ++ [c] }
  else { r.close value with key := [c] }

end Reading

/-- Reads a table whose keys are `width` characters wide. -/
def ofText (width : Nat) (value : List Char → α) (text : String) : Runs α :=
  ⟨((text.toList.foldl (Reading.step width value) ⟨#[], 0, [], none⟩).close value).done⟩

/-- The index of the last run among those from `low` to below `high` that starts at `n` or
    before, if the one at `low` does. Each step of `fuel` halves the range. -/
def search (r : Runs α) (n : Nat) : (fuel low high : Nat) → Nat
  | 0, low, _ => low
  | fuel + 1, low, high =>
    let middle := (low + high) / 2
    if low < middle then
      match r.starts[middle]? with
      | some (start, _) => if start ≤ n then search r n fuel middle high else search r n fuel low middle
      | none => low
    else low

/-- The value of the run that holds `n`. -/
def find? (r : Runs α) (n : Nat) : Option α :=
  (r.starts[r.search n (r.starts.size.log2 + 1) 0 r.starts.size]?).map (·.2)

/-- The edges of the runs whose value satisfies `p`, if `inside` tells whether the value before the
    first of the runs given does. -/
def edges (p : α → Bool) : (inside : Bool) → List (Nat × α) → List Nat
  | inside, [] => if inside then [0x110000] else []
  | inside, (start, value) :: rest =>
    if p value = inside then edges p inside rest else start :: edges p (!inside) rest

/-- The characters whose value satisfies `p`. -/
def those (r : Runs α) (p : α → Bool) : CharSet :=
  .inter .all ⟨edges p false r.starts.toList⟩

end Runs

end Sift.Unicode
