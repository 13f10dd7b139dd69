/-!
# Functions

The functions that an expression may apply to operands, by name: arithmetic on one or two numbers,
and the usual functions of a real number. What they compute is told with the values, in
`Sift.Value.Apply`.
-/

namespace Sift

/-- A function of one or two operands. -/
inductive Function
  | add | sub | mul | div | mod | neg
  | abs | acos | asin | atan | atan2 | ceil | cos | degrees | exp | floor | ln | log | pow
  | radians | round | sin | sqrt | tan
  deriving DecidableEq, Repr

namespace Function

/-- Every function, with its name. -/
def all : List (Function × String) :=
  [(.add, "add"), (.sub, "sub"), (.mul, "mul"), (.div, "div"), (.mod, "mod"), (.neg, "neg"),
   (.abs, "abs"), (.acos, "acos"), (.asin, "asin"), (.atan, "atan"), (.atan2, "atan2"),
   (.ceil, "ceil"), (.cos, "cos"), (.degrees, "degrees"), (.exp, "exp"), (.floor, "floor"),
   (.ln, "ln"), (.log, "log"), (.pow, "pow"), (.radians, "radians"), (.round, "round"),
   (.sin, "sin"), (.sqrt, "sqrt"), (.tan, "tan")]

/-- The name of a function. -/
def name (f : Function) : String := ((all.find? (·.1 = f)).map (·.2)).getD ""

/-- The function of a name. -/
def ofName? (s : String) : Option Function := (all.find? (·.2 = s)).map (·.1)

/-- The number of operands a function takes. -/
def arity : Function → Nat
  | .add | .sub | .mul | .div | .mod | .pow | .atan2 => 2
  | _ => 1

/-- **A name stands for its own function.** -/
theorem ofName?_name (f : Function) : ofName? f.name = some f := by
  cases f <;> decide

end Function

end Sift
