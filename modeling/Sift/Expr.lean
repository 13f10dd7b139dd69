import Sift.Function
import Sift.Json.Basic

/-!
# Expressions

What a document is asked. An expression is built from tests of operands, the connectives, and
loops over the elements of an array; operands are literals, fields and functions of operands. One
type serves both, as an operand in the place of a truth value asks whether it is true.

Every field starts from a variable: `Variable.root` is the document, and a loop binds another to
the element at hand.
-/

namespace Sift

/-! ## 1. Fields, relations, loops -/

/-- The number of a variable. -/
abbrev Variable := UInt64

/-- The variable that is the document. -/
def Variable.root : Variable := 0

/-- The names to follow from a value to one inside it. -/
abbrev Path := List String

/-- A variable, and the way from it. An empty way stays at the variable itself. -/
structure Field where
  root : Variable
  path : Path
  deriving DecidableEq, Repr

/-- A relation between two operands. -/
inductive Relation
  | equals | notEquals | lessThan | lessEquals | greaterThan | greaterEquals
  deriving DecidableEq, Repr

/-- How a loop combines what its body says of the elements. -/
inductive LoopMode
  /-- Some element satisfies the body. -/
  | any
  /-- All elements satisfy it. -/
  | every
  /-- All elements satisfy it, and there is one. -/
  | anyEvery
  deriving DecidableEq, Repr

/-! ## 2. Expressions -/

/-- An expression. -/
inductive Expr
  /-- Always true, or always false. -/
  | truth (b : Bool)
  | value (v : Json)
  | field (f : Field)
  | func (f : Function) (params : List Expr)
  | not (e : Expr)
  | and (es : List Expr)
  | or (es : List Expr)
  /-- A loop over the array that `target` is, binding `var` in `body`. -/
  | loop (mode : LoopMode) (var : Variable) (target body : Expr)
  /-- The operand is there. -/
  | present (e : Expr)
  /-- The operand is not there. -/
  | absent (e : Expr)
  | relation (r : Relation) (lhs rhs : Expr)
  /-- The text of the left side has a match of the pattern that the right side is. -/
  | like (lhs rhs : Expr)

/-! ## 3. Tests -/

/-- What a test asks of its operands. -/
inductive Operator
  | relation (r : Relation)
  | matches
  | present
  | absent
  /-- The operand is the truth value `true`. -/
  | isTrue
  deriving DecidableEq, Repr

namespace Operator

/-- Every operator, with its name and its symbol. -/
def all : List (Operator × String × String) :=
  [(.relation .equals, "equals", "=="), (.relation .notEquals, "not_equals", "!="),
   (.relation .lessThan, "less_than", "<"), (.relation .lessEquals, "less_equals", "<="),
   (.relation .greaterThan, "greater_than", ">"),
   (.relation .greaterEquals, "greater_equals", ">="), (.matches, "matches", "=~"),
   (.present, "exists", "exists"), (.absent, "not_exists", "not-exists"),
   (.isTrue, "is_true", "is-true")]

/-- The name of an operator. -/
def name (o : Operator) : String := ((all.find? (·.1 = o)).map (·.2.1)).getD ""

/-- How an operator is shown in a plan. -/
def symbol (o : Operator) : String := ((all.find? (·.1 = o)).map (·.2.2)).getD ""

/-- The operator of a name. -/
def ofName? (s : String) : Option Operator := (all.find? (·.2.1 = s)).map (·.1)

/-- Whether the operator takes one operand. -/
def isUnary : Operator → Bool
  | .present | .absent | .isTrue => true
  | _ => false

end Operator

namespace LoopMode

/-- The name of a mode. -/
def name : LoopMode → String
  | .any => "any"
  | .every => "every"
  | .anyEvery => "any_every"

end LoopMode

namespace Expr

/-- The operator and the operands of a test. -/
def test? : Expr → Option (Operator × Expr × Option Expr)
  | .present e => some (.present, e, none)
  | .absent e => some (.absent, e, none)
  | .relation r lhs rhs => some (.relation r, lhs, some rhs)
  | .like lhs rhs => some (.matches, lhs, some rhs)
  | _ => none

/-- The mode, the variable, the target and the body of a loop. -/
def loop? : Expr → Option (LoopMode × Variable × Expr × Expr)
  | .loop mode var target body => some (mode, var, target, body)
  | _ => none

/-! ## 4. Fields and variables -/

mutual

/-- Every field that an expression reads, from left to right, those of variables bound in it
    included. -/
def fields : Expr → List Field
  | .truth _ | .value _ => []
  | .field f => [f]
  | .func _ es | .and es | .or es => fieldsOfAll es
  | .not e | .present e | .absent e => e.fields
  | .loop _ _ target body => target.fields ++ body.fields
  | .relation _ lhs rhs | .like lhs rhs => lhs.fields ++ rhs.fields

/-- The fields of several expressions. -/
def fieldsOfAll : List Expr → List Field
  | [] => []
  | e :: rest => e.fields ++ fieldsOfAll rest

end

mutual

/-- The variables that loops in an expression bind, itself included, from left to right. -/
def bound : Expr → List Variable
  | .truth _ | .value _ | .field _ => []
  | .func _ es | .and es | .or es => boundByAll es
  | .not e | .present e | .absent e => e.bound
  | .loop _ var target body => var :: (target.bound ++ body.bound)
  | .relation _ lhs rhs | .like lhs rhs => lhs.bound ++ rhs.bound

/-- The variables bound in several expressions. -/
def boundByAll : List Expr → List Variable
  | [] => []
  | e :: rest => e.bound ++ boundByAll rest

end

end Expr

end Sift
