import Sift.Expr
import Sift.Value
import Sift.Pattern
import Sift.Resolution.Tree

/-!
# Plans

A compiled filter has two halves. The resolution tree holds its Boolean structure. The plan
proper is a tree of `Node`s after the shape of the documents: a node says what to do with the
value at one place, and has children for the members to look into.

A value that is needed away from its own place is captured: its node has a slot, and an operand
may name the slot. What needs several values waits for the end of a node that holds them all.
-/

namespace Sift

/-! ## 1. Operands and tests -/

/-- Where the value of an operand comes from. -/
inductive Operand
  /-- From the expression. -/
  | literal (v : Value)
  /-- From the value captured in a slot. -/
  | slot (n : Nat)
  | func (f : Function) (args : List Operand)
  /-- From the value at the node of the test. -/
  | active

/-- What a test asks. -/
inductive Check
  | relation (r : Relation) (lhs rhs : Operand)
  | matches (lhs : Operand) (pattern : Pattern)
  | present (o : Operand)
  | absent (o : Operand)
  | isTrue (o : Operand)

/-- A test, and the bucket its answer goes to. -/
structure Test where
  bucket : Nat
  check : Check

/-! ## 2. Nodes -/

mutual

/-- What to do with the value at one place of a document. -/
structure Node where
  /-- The slot that captures the value. -/
  slot : Option Nat
  /-- The tests of the value itself. -/
  tests : List Test
  /-- The loops over the value, run while it is read. -/
  loops : List Loop
  /-- The members to look into, in the order they were first asked for. -/
  children : List (String × Node)
  /-- The tests that wait until the value has been read. -/
  afterTests : List Test
  /-- The loops that wait so. -/
  afterLoops : List Loop

/-- A loop over an array, and the bucket its answer goes to. The bucket of the body comes next. -/
structure Loop where
  bucket : Nat
  mode : LoopMode
  /-- The array: the value at the node of the loop or, of a loop that waits, a captured one. -/
  target : Operand
  /-- What to do with each element. -/
  body : Node
  /-- The slots of the body, which are emptied before each element. -/
  locals : List Nat

end

namespace Node

/-- Nothing to do. -/
def empty : Node := ⟨none, [], [], [], [], []⟩

/-- Whether there is nothing to do. -/
def isEmpty (n : Node) : Bool :=
  n.slot.isNone && n.tests.isEmpty && n.loops.isEmpty && n.children.isEmpty &&
    n.afterTests.isEmpty && n.afterLoops.isEmpty

/-- The child of a name. -/
def child? (name : String) : List (String × Node) → Option Node
  | [] => none
  | (other, n) :: rest => if other = name then some n else child? name rest

/-- The node at the end of a path. -/
def at? : Path → Node → Option Node
  | [], n => some n
  | name :: path, n => (child? name n.children).bind (at? path)

/-- The children with one changed. One that is not there yet comes last and starts empty. -/
def modifyChild (name : String) (f : Node → Node) : List (String × Node) → List (String × Node)
  | [] => [(name, f empty)]
  | (other, n) :: rest =>
    if other = name then (other, f n) :: rest else (other, n) :: modifyChild name f rest

/-- Changes the node at the end of a path, with the nodes on the way there. -/
def modifyAt (f : Node → Node) : Path → Node → Node
  | [], n => f n
  | name :: path, n => { n with children := modifyChild name (modifyAt f path) n.children }

end Node

/-! ## 3. Plans -/

/-- A compiled filter. -/
structure Plan where
  root : Node
  tree : Resolution.Tree
  /-- The bucket of each expression, in order. -/
  buckets : List Nat
  /-- The number of slots. -/
  slots : Nat

/-- Whether a plan answers several expressions. -/
def Plan.isBatch (p : Plan) : Bool := 1 < p.buckets.length

end Sift
