/-!
# Resolution trees

The Boolean structure of a compiled filter, as an array of nodes in pre-order: node 0 is the root,
and the nodes below any node are those that follow it directly, up to its end. A node is a bucket
that comes to hold one truth value.

`Tree.ofNodes` checks an array of nodes by walking it as a tree. The walk must come upon each node
exactly where the array has it, with the parent and the children that it says, and must use up the
array. What it learns is where each node's part ends.
-/

namespace Sift.Resolution

/-! ## 1. Nodes -/

/-- How a node gets its value from its children. -/
inductive NodeKind
  /-- It has none, and is marked directly. -/
  | leaf
  | and
  | or
  /-- The contrary of its left child. -/
  | not
  /-- It holds children but takes no value from them, and is marked directly. -/
  | barrier
  deriving DecidableEq, Repr

/-- The name of a kind in messages. -/
def NodeKind.name : NodeKind → String
  | .leaf => "Leaf"
  | .and => "And"
  | .or => "Or"
  | .not => "Not"
  | .barrier => "Barrier"

/-- A node, with the indices of its parent and its children. As node 0 is nobody's child, 0 says
    that there is no child; the root is its own parent. -/
structure TreeNode where
  parent : Nat
  kind : NodeKind
  left : Nat
  right : Nat
  deriving DecidableEq, Repr

/-- What can be wrong with an array of nodes. -/
inductive TreeError
  | empty
  | childOutOfBounds (node : Nat)
  | badChildren (node : Nat) (kind : NodeKind)
  | badParent (node expected found : Nat)
  | notPreOrder (node : Nat)
  | unreachable (consumed count : Nat)
  deriving DecidableEq, Repr

/-- What an error says. -/
def TreeError.message : TreeError → String
  | .empty => "tree is empty"
  | .childOutOfBounds node => s!"node {node}: child index out of bounds"
  | .badChildren node kind => s!"node {node}: {kind.name} node has the wrong children"
  | .badParent node expected found =>
    s!"node {node}: expected parent {expected}, found {found}"
  | .notPreOrder node => s!"node {node} is not laid out in pre-order"
  | .unreachable consumed count => s!"pre-order walk consumed {consumed} of {count} nodes"

/-! ## 2. The walk -/

/-- What the walk of the part at node `i` learns: where the part ends, and the ends of all parts in
    it, its own first. -/
structure Part (i : Nat) where
  next : Nat
  ends : List Nat
  lt : i < next

/-- The child of a node, where the walk comes to it: it must be a node, and the next one. -/
def enter (nodes : Array TreeNode) (node child expected : Nat) :
    Except TreeError { c : Nat // c = expected ∧ c < nodes.size } :=
  if h : 0 < child ∧ child < nodes.size then
    if he : child = expected then .ok ⟨child, he, h.2⟩ else .error (.notPreOrder child)
  else .error (.childOutOfBounds node)

/-- Walks the part at node `i`. -/
def walk (nodes : Array TreeNode) (parent i : Nat) (h : i < nodes.size) :
    Except TreeError (Part i) :=
  let node := nodes[i]
  if node.parent ≠ parent then .error (.badParent i parent node.parent)
  else
    match node.kind with
    | .leaf =>
      if node.left ≠ 0 ∨ node.right ≠ 0 then .error (.badChildren i node.kind)
      else .ok ⟨i + 1, [i + 1], Nat.lt_succ_self i⟩
    | .not =>
      if node.right ≠ 0 then .error (.badChildren i node.kind)
      else do
        let ⟨c, hc⟩ ← enter nodes i node.left (i + 1)
        let l ← walk nodes i c hc.2
        return ⟨l.next, l.next :: l.ends, by have := l.lt; omega⟩
    | .barrier => do
      let ⟨c, hc⟩ ← enter nodes i node.left (i + 1)
      let l ← walk nodes i c hc.2
      if node.right = 0 then return ⟨l.next, l.next :: l.ends, by have := l.lt; omega⟩
      else
        let ⟨d, hd⟩ ← enter nodes i node.right l.next
        let r ← walk nodes i d hd.2
        return ⟨r.next, r.next :: (l.ends ++ r.ends), by have := l.lt; have := r.lt; omega⟩
    | .and | .or => do
      let ⟨c, hc⟩ ← enter nodes i node.left (i + 1)
      let l ← walk nodes i c hc.2
      let ⟨d, hd⟩ ← enter nodes i node.right l.next
      let r ← walk nodes i d hd.2
      return ⟨r.next, r.next :: (l.ends ++ r.ends), by have := l.lt; have := r.lt; omega⟩
termination_by nodes.size - i
decreasing_by
  · omega
  · omega
  · have := l.lt
    omega
  · omega
  · have := l.lt
    omega

/-! ## 3. Trees -/

/-- A tree: its nodes, and for each node the index one past the last node below it. -/
structure Tree where
  nodes : Array TreeNode
  ends : Array Nat

namespace Tree

/-- **The tree that an array of nodes is**, if it is one. -/
def ofNodes (nodes : Array TreeNode) : Except TreeError Tree :=
  if h : 0 < nodes.size then do
    let part ← walk nodes 0 0 h
    if part.next = nodes.size then return ⟨nodes, part.ends.toArray⟩
    else .error (.unreachable part.next nodes.size)
  else .error .empty

/-- The number of nodes. -/
def size (t : Tree) : Nat := t.nodes.size

/-- The node of an index; past the last, a leaf without a parent. -/
def node (t : Tree) (i : Nat) : TreeNode := (t.nodes[i]?).getD ⟨0, .leaf, 0, 0⟩

/-- One past the last node below a node. -/
def stop (t : Tree) (i : Nat) : Nat := (t.ends[i]?).getD (i + 1)

/-- Whether node `j` lies below node `i`. -/
def isBelow (t : Tree) (i j : Nat) : Bool := i < j && j < t.stop i

end Tree

end Sift.Resolution
