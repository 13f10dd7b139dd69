import Sift.Plan
import Sift.Toolkit
import Sift.Value.Json

/-!
# Compiling expressions

Compiling walks an expression once. Each connective, test and loop it comes to takes the next
bucket, so buckets are numbered in pre-order; what the walk returns is the Boolean `Formula` that
the resolution tree is laid out from. On the way each test and loop is put where it sees its data:

* a test of one field of its own scope goes to that field's node and reads the value there;
* any other test waits for the end of the deepest node that holds all the fields of its own scope
  that it reads, and those fields are captured in slots;
* a loop goes to the node of its array if its body reads nothing else of its scope, and otherwise
  waits in the same way, with its array captured.

A scope is what one variable is bound to: the document, or the element of a loop.
-/

namespace Sift

/-! ## 1. Errors -/

/-- Why an expression has no plan. -/
inductive CompileError
  | unboundVariable (var : Variable)
  | invalidLoopTarget
  | invalidPattern (pattern : String)
  | nonLiteralPattern
  | functionArity (f : Function) (found : Nat)
  | booleanOperand
  | emptyBatch
  | tree (e : Resolution.TreeError)
  deriving DecidableEq, Repr

/-- What an error says. -/
def CompileError.message : CompileError → String
  | .unboundVariable var => s!"variable {var.toNat} is not bound here"
  | .invalidLoopTarget => "loop target must be a field reference"
  | .invalidPattern pattern => s!"invalid pattern '{pattern}'"
  | .nonLiteralPattern => "the right side of a match must be a string literal"
  | .functionArity f found => s!"{f.name} takes {f.arity} argument(s), found {found}"
  | .booleanOperand => "a boolean expression cannot be used as a value"
  | .emptyBatch => "no expressions to compile"
  | .tree e => s!"invalid resolution tree: {e.message}"

namespace Plan

/-! ## 2. Formulas -/

/-- The Boolean structure of expressions. -/
inductive Formula
  /-- A test. -/
  | leaf
  | not (a : Formula)
  | and (a b : Formula)
  | or (a b : Formula)
  /-- A loop, over the formula of its body. -/
  | loop (body : Formula)
  /-- Two independent formulas. -/
  | both (a b : Formula)

namespace Formula

/-- The number of buckets. -/
def size : Formula → Nat
  | .leaf => 1
  | .not a | .loop a => a.size + 1
  | .and a b | .or a b | .both a b => a.size + b.size + 1

/-- The nodes in pre-order, from index `i` on, below `parent`. -/
def layout : Formula → (parent i : Nat) → List Resolution.TreeNode
  | .leaf, parent, _ => [⟨parent, .leaf, 0, 0⟩]
  | .not a, parent, i => ⟨parent, .not, i + 1, 0⟩ :: a.layout i (i + 1)
  | .loop a, parent, i => ⟨parent, .barrier, i + 1, 0⟩ :: a.layout i (i + 1)
  | .and a b, parent, i =>
    ⟨parent, .and, i + 1, i + 1 + a.size⟩ :: (a.layout i (i + 1) ++ b.layout i (i + 1 + a.size))
  | .or a b, parent, i =>
    ⟨parent, .or, i + 1, i + 1 + a.size⟩ :: (a.layout i (i + 1) ++ b.layout i (i + 1 + a.size))
  | .both a b, parent, i =>
    ⟨parent, .barrier, i + 1, i + 1 + a.size⟩ ::
      (a.layout i (i + 1) ++ b.layout i (i + 1 + a.size))

end Formula

/-! ## 3. Scopes -/

/-- What is being built for one variable: its plan so far, and the slots given to nodes of it. -/
structure Scope where
  var : Variable
  node : Node
  slots : List Nat

/-- What is being built: the buckets and slots given so far, and the scopes, innermost first. -/
structure Draft where
  buckets : Nat
  slots : Nat
  scopes : List Scope

/-- A step of compiling. -/
abbrev Compile := StateT Draft (Except CompileError)

/-- The next bucket. -/
def nextBucket : Compile Nat := modifyGet fun d => (d.buckets, { d with buckets := d.buckets + 1 })

/-- How many scopes in from the innermost one a variable is bound. -/
def scopeOf (var : Variable) : Compile Nat := do
  match (← get).scopes.findIdx? (·.var = var) with
  | some i => return i
  | none => throw (.unboundVariable var)

/-- Changes the plan of a scope. -/
def modifyScope (i : Nat) (f : Scope → Scope) : Compile Unit :=
  modify fun d => { d with scopes := d.scopes.modify i f }

/-- Changes a node of the innermost scope. -/
def modifyNode (path : Path) (f : Node → Node) : Compile Unit :=
  modifyScope 0 fun s => { s with node := s.node.modifyAt f path }

/-- The slot of a node, given to it when it is first asked for. -/
def slotFor (scope : Nat) (path : Path) : Compile Nat := do
  let d ← get
  match (d.scopes[scope]?).bind fun s => (s.node.at? path).bind (·.slot) with
  | some slot => return slot
  | none =>
    set { d with slots := d.slots + 1 }
    modifyScope scope fun s =>
      { s with
        node := s.node.modifyAt (fun n => { n with slot := some d.slots }) path
        slots := s.slots ++ [d.slots] }
    return d.slots

/-- The paths of the fields that start in the innermost scope, each once. -/
def localPaths : List Field → (found : List Path) → Compile (List Path)
  | [], found => return found
  | f :: rest, found => do
    if (← scopeOf f.root) = 0 ∧ f.path ∉ found then localPaths rest (found ++ [f.path])
    else localPaths rest found

/-- The names with which two paths begin alike. -/
def sharedPath : Path → Path → Path
  | a :: p, b :: q => if a = b then a :: sharedPath p q else []
  | _, _ => []

/-- The names with which all of several paths begin. -/
def commonPath : List Path → Path
  | [] => []
  | first :: rest => rest.foldl sharedPath first

/-! ## 4. Operands -/

/-- The operand of a field. At the node of the field itself it is the value there. -/
def fieldOperand (active : Option Path) (f : Field) : Compile Operand := do
  let scope ← scopeOf f.root
  if scope = 0 ∧ active = some f.path then return .active
  else return .slot (← slotFor scope f.path)

mutual

/-- The operand that an expression is, for a test at the node of the path `active` if there is
    one. -/
def operand (kit : Toolkit) (active : Option Path) : Expr → Compile Operand
  | .truth b => return .literal (.bool b)
  | .value v => return .literal (Value.ofJson kit.json v)
  | .field f => fieldOperand active f
  | .func f params => do
    if params.length ≠ f.arity then throw (.functionArity f params.length)
    return .func f (← operands kit active params)
  | .not _ | .and _ | .or _ | .loop .. | .present _ | .absent _ | .relation .. | .like .. =>
    throw .booleanOperand

/-- The operands that several expressions are. -/
def operands (kit : Toolkit) (active : Option Path) : List Expr → Compile (List Operand)
  | [] => return []
  | e :: rest => do
    let first ← operand kit active e
    return first :: (← operands kit active rest)

end

/-! ## 5. Tests -/

/-- The pattern that the right side of a match is. -/
def patternOf (kit : Toolkit) : Expr → Compile Pattern
  | .value (.string s) =>
    match kit.patterns.ofString? s with
    | some p => return p
    | none => throw (.invalidPattern s)
  | _ => throw .nonLiteralPattern

/-- Puts a test of the given fields where it sees them. What the test asks is told by `check`,
    once it is known at which node it stands, if at any. -/
def place (fields : List Field) (check : Option Path → Compile Check) : Compile Formula := do
  let bucket ← nextBucket
  match ← localPaths fields [] with
  | [path] =>
    let test := ⟨bucket, ← check (some path)⟩
    modifyNode path fun n => { n with tests := n.tests ++ [test] }
  | paths =>
    let test := ⟨bucket, ← check none⟩
    modifyNode (commonPath paths) fun n => { n with afterTests := n.afterTests ++ [test] }
  return .leaf

/-- A test of one operand. -/
def unaryTest (kit : Toolkit) (check : Operand → Check) (e : Expr) : Compile Formula :=
  place e.fields fun active => check <$> operand kit active e

/-- A test of two operands. -/
def relationTest (kit : Toolkit) (r : Relation) (lhs rhs : Expr) : Compile Formula :=
  place (lhs.fields ++ rhs.fields) fun active => do
    let l ← operand kit active lhs
    return .relation r l (← operand kit active rhs)

/-- A test of an operand against a pattern, which is read before anything else. -/
def patternTest (kit : Toolkit) (lhs rhs : Expr) : Compile Formula := do
  let pattern ← patternOf kit rhs
  place lhs.fields fun active => (.matches · pattern) <$> operand kit active lhs

/-! ## 6. Expressions -/

/-- Runs the steps for the body of a loop in a scope of its own. -/
def inScope (var : Variable) (body : Compile Formula) : Compile (Formula × Scope) := do
  modify fun d => { d with scopes := ⟨var, .empty, []⟩ :: d.scopes }
  let formula ← body
  let d ← get
  match d.scopes with
  | inner :: outer =>
    set { d with scopes := outer }
    return (formula, inner)
  | [] => return (formula, ⟨var, .empty, []⟩)

/-- A loop over a field, whose body is compiled by `body`. -/
def placeLoop (mode : LoopMode) (var : Variable) (target : Field) (e : Expr)
    (body : Compile Formula) : Compile Formula := do
  let bucket ← nextBucket
  let scope ← scopeOf target.root
  let bound := e.bound ++ [var]
  let paths ← localPaths ((target :: e.fields).filter (·.root ∉ bound)) []
  let (formula, inner) ← inScope var body
  if scope = 0 ∧ paths = [target.path] then
    let loop := ⟨bucket, mode, .active, inner.node, inner.slots⟩
    modifyNode target.path fun n => { n with loops := n.loops ++ [loop] }
  else
    let slot ← slotFor scope target.path
    let loop := ⟨bucket, mode, .slot slot, inner.node, inner.slots⟩
    modifyNode (commonPath paths) fun n => { n with afterLoops := n.afterLoops ++ [loop] }
  return .loop formula

mutual

/-- **Compiles an expression in the place of a truth value.** -/
def formula (kit : Toolkit) : Expr → Compile Formula
  | .and es => chain kit true es
  | .or es => chain kit false es
  | .not e => do
    let _ ← nextBucket
    return .not (← formula kit e)
  | .loop mode var target body =>
    match target with
    | .field f => placeLoop mode var f body (formula kit body)
    | _ => throw .invalidLoopTarget
  | .present e => unaryTest kit .present e
  | .absent e => unaryTest kit .absent e
  | .relation r lhs rhs => relationTest kit r lhs rhs
  | .like lhs rhs => patternTest kit lhs rhs
  | .truth b => unaryTest kit .isTrue (.truth b)
  | .value v => unaryTest kit .isTrue (.value v)
  | .field f => unaryTest kit .isTrue (.field f)
  | .func f params => unaryTest kit .isTrue (.func f params)

/-- Compiles a conjunction or a disjunction of several expressions, as a chain of two at a time.
    Of none it is the constant that changes nothing. -/
def chain (kit : Toolkit) (conjunction : Bool) : List Expr → Compile Formula
  | [] => unaryTest kit .isTrue (.truth conjunction)
  | [e] => formula kit e
  | e :: rest => do
    let _ ← nextBucket
    let a ← formula kit e
    let b ← chain kit conjunction rest
    return if conjunction then .and a b else .or a b

end

/-- Compiles several independent expressions. The buckets are those of their formulas. -/
def batch (kit : Toolkit) : List Expr → Compile (Formula × List Nat)
  | [] => throw .emptyBatch
  | [e] => do
    let bucket := (← get).buckets
    return (← formula kit e, [bucket])
  | e :: rest => do
    let _ ← nextBucket
    let bucket := (← get).buckets
    let a ← formula kit e
    let (b, buckets) ← batch kit rest
    return (.both a b, bucket :: buckets)

/-- **Compiles expressions into one plan**, which answers all of them in one reading. -/
def compileAll (kit : Toolkit) (es : List Expr) : Except CompileError Plan := do
  let ((f, buckets), d) ← (batch kit es).run ⟨0, 0, [⟨.root, .empty, []⟩]⟩
  match Resolution.Tree.ofNodes (f.layout 0 0).toArray with
  | .ok tree => return ⟨((d.scopes.head?).map (·.node)).getD .empty, tree, buckets, d.slots⟩
  | .error e => throw (.tree e)

/-- Compiles one expression. -/
def compile (kit : Toolkit) (e : Expr) : Except CompileError Plan := compileAll kit [e]

end Plan

end Sift
