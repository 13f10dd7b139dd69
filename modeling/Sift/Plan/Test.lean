import Sift.Plan
import Sift.Span
import Sift.Value.Compare
import Sift.Value.Apply

/-!
# Deciding tests

What a test answers depends on the values that the slots have captured and on the value at the
node of the test. `Operand.value` is the value of an operand and `Check.holds` the answer of a
test; `Check.slots` lists the slots that either looks at.
-/

namespace Sift

/-! ## 1. Operands -/

/-- The values that have been captured, by slot. -/
abbrev Slots := Array (Option Span)

/-- The value that a slot has captured. An empty slot stands for a field that is not there. -/
def Slots.value (data : Bytes) (slots : Slots) (n : Nat) : Value :=
  match (slots[n]?).join with
  | some span => span.value data
  | none => .missing

namespace Operand

mutual

/-- The slots that an operand reads, from left to right. -/
def slots : Operand → List Nat
  | .literal _ | .active => []
  | .slot n => [n]
  | .func _ args => slotsOfAll args

/-- The slots that several operands read. -/
def slotsOfAll : List Operand → List Nat
  | [] => []
  | o :: rest => o.slots ++ slotsOfAll rest

end

mutual

/-- **The value of an operand**, where the slots have captured the values `captured`. -/
def value (captured : Nat → Value) (active : Value) : Operand → Value
  | .literal v => v
  | .active => active
  | .slot n => captured n
  | .func f args =>
    let values := valuesOfAll captured active args
    f.apply (values[0]?.getD .missing) (values[1]?.getD .missing)

/-- The values of several operands. -/
def valuesOfAll (captured : Nat → Value) (active : Value) : List Operand → List Value
  | [] => []
  | o :: rest => o.value captured active :: valuesOfAll captured active rest

end

end Operand

/-! ## 2. Tests -/

/-- Whether a relation holds between two values in this order. -/
def Relation.holds : Relation → Ordering → Bool
  | .equals, o => o.isEq
  | .notEquals, o => o.isNe
  | .lessThan, o => o.isLT
  | .lessEquals, o => o.isLE
  | .greaterThan, o => o.isGT
  | .greaterEquals, o => o.isGE

/-- Whether a relation holds between two values. None holds of a value that is absent. -/
def Relation.relates (r : Relation) (D : Decimals) (a b : Value) : Bool :=
  !a.isAbsent && !b.isAbsent && r.holds (a.compare D b)

/-- The text that a string stands for. Bytes that are no text have none. -/
def Value.plainText? : Value → Option String
  | .string s => some s
  | .escString body => some (unescaped body)
  | .byteString bytes => Utf8.text? bytes
  | _ => none

/-- Whether a value has a match of a pattern. Only strings have. -/
def Pattern.matchesValue (pattern : Pattern) (v : Value) : Bool :=
  match v.plainText? with
  | some s => pattern.matchesIn s.toList
  | none => false

namespace Check

/-- The slots that a test reads, from left to right. -/
def slots : Check → List Nat
  | .relation _ lhs rhs => lhs.slots ++ rhs.slots
  | .matches o _ | .present o | .absent o | .isTrue o => o.slots

/-- **The answer of a test.** -/
def holds (D : Decimals) (captured : Nat → Value) (active : Value) : Check → Bool
  | .relation r lhs rhs => r.relates D (lhs.value captured active) (rhs.value captured active)
  | .matches o pattern => pattern.matchesValue (o.value captured active)
  | .present o => !(o.value captured active).isMissing
  | .absent o => (o.value captured active).isMissing
  | .isTrue o => (o.value captured active).isTrue

end Check

end Sift
