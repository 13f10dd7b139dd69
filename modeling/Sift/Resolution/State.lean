import Sift.Resolution.Tree

/-!
# Marking a resolution tree

During a match each node of the tree holds a `Mark`. Marking a node with a truth value settles it,
makes everything below it `resolved`, as nothing there matters any more, and then goes up: a parent
whose value is determined by its children is settled too, and so on.

A **stall** bounds the way up. While a loop runs, its node is the stall: what happens below neither
settles it nor goes past it.
-/

namespace Sift.Resolution

/-! ## 1. Marks -/

/-- What is known of a node. -/
inductive Mark
  | unknown
  /-- Settled without a value: a node above was settled first. -/
  | resolved
  | value (b : Bool)
  deriving DecidableEq, Repr

/-- The name of a mark in messages. -/
def Mark.name : Mark → String
  | .unknown => "Unknown"
  | .resolved => "Resolved"
  | .value true => "True"
  | .value false => "False"

/-- A node was to be marked that is settled already. -/
structure DoubleMark where
  bucket : Nat
  found : Mark
  deriving DecidableEq, Repr

/-- What is said of it. -/
def DoubleMark.message (d : DoubleMark) : String :=
  s!"bucket {d.bucket} marked while already {d.found.name}"

/-! ## 2. States -/

/-- The marks of a tree during one match, and the stall if there is one. -/
structure State where
  tree : Tree
  marks : Array Mark
  stall : Option Nat

namespace State

/-- Nothing is known. -/
def fresh (tree : Tree) : State := ⟨tree, Array.replicate tree.size .unknown, none⟩

/-- The mark of a node. -/
def get (s : State) (i : Nat) : Mark := (s.marks[i]?).getD .unknown

/-- Nothing is known of a node. -/
def isUnknown (s : State) (i : Nat) : Bool := s.get i == .unknown

/-- A node is settled, with or without a value. -/
def isResolved (s : State) (i : Nat) : Bool := !s.isUnknown i

/-- A node is true. -/
def isTrue (s : State) (i : Nat) : Bool := s.get i == .value true

/-- Whether no more needs to be known: the root is settled, or below a stall its body. -/
def isSettled (s : State) : Bool :=
  match s.stall with
  | some i => s.isResolved (s.tree.node i).left
  | none => s.isResolved 0

/-- Every node by its index and its mark. -/
def update (s : State) (f : Nat → Mark → Mark) : State := { s with marks := s.marks.mapIdx f }

/-- The same with another stall. -/
def withStall (s : State) (stall : Option Nat) : State := { s with stall }

/-- Nothing is known of any node, and there is no stall. -/
def reset (s : State) : State := (s.update fun _ _ => .unknown).withStall none

/-- Nothing is known of what lies below a node. -/
def resetBelow (s : State) (i : Nat) : State :=
  s.update fun j m => if s.tree.isBelow i j then .unknown else m

/-! ## 3. Marking -/

/-- A node has a value, and nothing below it matters any more. -/
def settle (s : State) (i : Nat) (b : Bool) : State :=
  s.update fun j m =>
    if j = i then .value b
    else if s.tree.isBelow i j && m == .unknown then .resolved
    else m

/-- The value of a conjunction with parts of these marks, if they determine it. -/
def conjunction? (left right : Mark) : Option Bool :=
  if left = .value false ∨ right = .value false then some false
  else if left = .value true ∧ right = .value true then some true
  else none

/-- The value of a disjunction with parts of these marks, if they determine it. -/
def disjunction? (left right : Mark) : Option Bool :=
  if left = .value true ∨ right = .value true then some true
  else if left = .value false ∧ right = .value false then some false
  else none

/-- The value of a negation of a part of this mark, if it determines it. -/
def negation? : Mark → Option Bool
  | .value b => some (!b)
  | _ => none

/-- The value that a node gets from the marks of its children, if they determine one. -/
def combine? (s : State) (i : Nat) : Option Bool :=
  let node := s.tree.node i
  match node.kind with
  | .and => conjunction? (s.get node.left) (s.get node.right)
  | .or => disjunction? (s.get node.left) (s.get node.right)
  | .not => negation? (s.get node.left)
  | .leaf | .barrier => none

/-- Goes up from a node that has just been settled, as far as values are determined. In a tree
    every parent comes before its children, so the way ends. -/
def rise (s : State) (child : Nat) : State :=
  let parent := (s.tree.node child).parent
  if _up : parent < child then
    if s.stall = some parent ∨ s.get parent ≠ .unknown then s
    else
      match s.combine? parent with
      | some b => rise (s.settle parent b) parent
      | none => s
  else s
termination_by child

/-- **Marks a node**, which must be unknown, and everything that follows from it. -/
def mark (s : State) (i : Nat) (b : Bool) : Except DoubleMark State :=
  if s.isUnknown i then .ok ((s.settle i b).rise i) else .error ⟨i, s.get i⟩

end State

end Sift.Resolution
