import Sift.Plan
import Sift.Value.Json

/-!
# Plans as text

A plan in lines: its counts, its tree, and its nodes with what each is to do. The value at the
node is shown as `@` and slot `n` as `$n`. Members are listed by name.
-/

namespace Sift.Plan

/-! ## 1. Parts of a line -/

/-- A name inside quotes. What is no printable text is escaped. -/
def quotedName (name : String) : String :=
  let char (c : Char) : List Char :=
    match c with
    | '"' => ['\\', '"']
    | '\\' => ['\\', '\\']
    | '\n' => ['\\', 'n']
    | '\r' => ['\\', 'r']
    | '\t' => ['\\', 't']
    | c => if Unicode.Category.of c == .control then '\\' :: 'u' :: Text.hex4 c.toNat else [c]
  String.ofList ('"' :: name.toList.flatMap char ++ ['"'])

mutual

/-- An operand as text. -/
def operandText (J : Json.Codec) : Operand → String
  | .literal v => J.toText (v.toJson J)
  | .slot n => s!"${n}"
  | .active => "@"
  | .func f args => f.name ++ "(" ++ ", ".intercalate (operandTexts J args) ++ ")"

/-- Several operands as text. -/
def operandTexts (J : Json.Codec) : List Operand → List String
  | [] => []
  | o :: rest => operandText J o :: operandTexts J rest

end

/-- What a test asks, as text. -/
def checkText (J : Json.Codec) : Check → String
  | .relation r lhs rhs =>
    s!"{(Operator.relation r).symbol} {operandText J lhs} {operandText J rhs}"
  | .matches lhs pattern => s!"{Operator.matches.symbol} {operandText J lhs} /{pattern.text}/"
  | .present o => s!"{Operator.present.symbol} {operandText J o}"
  | .absent o => s!"{Operator.absent.symbol} {operandText J o}"
  | .isTrue o => s!"{Operator.isTrue.symbol} {operandText J o}"

/-- A mode as text. -/
def modeText : LoopMode → String
  | .any => "any"
  | .every => "every"
  | .anyEvery => "any-every"

/-- A node of the tree as text. -/
def treeNodeText (i : Nat) (n : Resolution.TreeNode) : String :=
  match n.kind with
  | .leaf => s!"{i}: leaf"
  | .not => s!"{i}: not {n.left}"
  | .and => s!"{i}: and {n.left} {n.right}"
  | .or => s!"{i}: or {n.left} {n.right}"
  | .barrier =>
    if n.right = 0 then s!"{i}: barrier {n.left}" else s!"{i}: barrier {n.left} {n.right}"

/-! ## 2. Lines -/

/-- Lines, moved in by one step. -/
def indented (lines : List String) : List String := lines.map ("  " ++ ·)

/-- The line of a test. -/
def testLine (J : Json.Codec) (t : Test) : String := s!"#{t.bucket} {checkText J t.check}"

/-- The line of a loop. -/
def loopLine (J : Json.Codec) (bucket : Nat) (mode : LoopMode) (target : Operand)
    (slots : List Nat) : String :=
  let names := " ".intercalate (slots.map fun n => s!"${n}")
  let clears := if slots.isEmpty then "" else s!" (clears {names})"
  s!"#{bucket} {modeText mode} in {operandText J target}{clears}"

/-- The lines of members, by name. -/
def memberLines (members : List (String × List String)) : List String :=
  (members.mergeSort fun a b => !decide (b.1 < a.1)).flatMap fun (name, lines) =>
    (quotedName name ++ ":") :: indented lines

mutual

/-- The lines of a node. -/
def nodeLines (J : Json.Codec) : Node → List String
  | ⟨slot, tests, loops, children, afterTests, afterLoops⟩ =>
    let after := afterTests.map (testLine J) ++ loopLines J afterLoops
    (slot.map fun n => s!"capture ${n}").toList ++ tests.map (testLine J) ++ loopLines J loops ++
      memberLines (childLines J children) ++
      if afterTests.isEmpty && afterLoops.isEmpty then [] else "after:" :: indented after

/-- The lines of loops. -/
def loopLines (J : Json.Codec) : List Loop → List String
  | [] => []
  | ⟨bucket, mode, target, body, slots⟩ :: rest =>
    loopLine J bucket mode target slots :: indented (nodeLines J body) ++ loopLines J rest

/-- The lines of each child, with its name. -/
def childLines (J : Json.Codec) : List (String × Node) → List (String × List String)
  | [] => []
  | (name, n) :: rest => (name, nodeLines J n) :: childLines J rest

end

/-- **A plan as text.** -/
def explain (p : Plan) (J : Json.Codec) : String :=
  let counts :=
    s!"buckets: {p.tree.size}, slots: {p.slots}, expressions: {p.buckets.length}"
  let tree := p.tree.nodes.toList.mapIdx treeNodeText
  let lines := counts :: "tree:" :: indented tree ++ "plan:" :: indented (nodeLines J p.root)
  String.join (lines.map (· ++ "\n"))

end Sift.Plan
