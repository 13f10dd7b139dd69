import Sift.Value.Arithmetic
import Sift.Function

/-!
# Applying functions

Arithmetic follows `Sift.Value.Arithmetic`. Every other function works on the doubles nearest to
its operands, and a result that is not finite is `invalid`, as is an operand that is no number.
-/

namespace Sift

namespace Value

/-- The ratio of a circle's circumference to its diameter. -/
def pi : Float := 3.141592653589793

/-- A function of one double, applied to a value. -/
def mapFloat (f : Float → Float) (a : Value) : Value :=
  match a.float? with
  | some x => ofFloat (f x)
  | none => .invalid

/-- A function of two doubles, applied to values. -/
def mapFloats (f : Float → Float → Float) (a b : Value) : Value :=
  match a.float?, b.float? with
  | some x, some y => ofFloat (f x y)
  | _, _ => .invalid

end Value

/-- **A function applied to its operands.** The second is read only by a function of two. -/
def Function.apply (f : Function) (a b : Value) : Value :=
  match f with
  | .add => Value.Operation.add.apply a b
  | .sub => Value.Operation.sub.apply a b
  | .mul => Value.Operation.mul.apply a b
  | .div => Value.Operation.div.apply a b
  | .mod => Value.Operation.rem.apply a b
  | .neg => a.neg
  | .pow => Value.mapFloats Float.pow a b
  | .atan2 => Value.mapFloats Float.atan2 a b
  | .abs => Value.mapFloat Float.abs a
  | .acos => Value.mapFloat Float.acos a
  | .asin => Value.mapFloat Float.asin a
  | .atan => Value.mapFloat Float.atan a
  | .ceil => Value.mapFloat Float.ceil a
  | .cos => Value.mapFloat Float.cos a
  | .degrees => Value.mapFloat (· * (180.0 / Value.pi)) a
  | .exp => Value.mapFloat Float.exp a
  | .floor => Value.mapFloat Float.floor a
  | .ln => Value.mapFloat Float.log a
  | .log => Value.mapFloat Float.log10 a
  | .radians => Value.mapFloat (· * (Value.pi / 180.0)) a
  | .round => Value.mapFloat Float.round a
  | .sin => Value.mapFloat Float.sin a
  | .sqrt => Value.mapFloat Float.sqrt a
  | .tan => Value.mapFloat Float.tan a

end Sift
