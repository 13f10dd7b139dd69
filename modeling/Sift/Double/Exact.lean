/-!
# The exact value of a double

A finite double is a whole number of units of `2^-1074`, the smallest positive double, and every
comparison and remainder can be told on those whole numbers:

* `Double.shape` takes a double apart into sign, mantissa and exponent;
* `Double.key?` is its place in the order, as an integer: its units, with the infinities past all
  finite doubles. A double that is no number has none;
* `Double.compare?` orders two doubles by their places, so the two zeros are equal;
* `Double.remainder` is the exact remainder.
-/

namespace Sift.Double

/-! ## 1. The parts of a double -/

/-- A double, taken apart. A finite one is `mantissa * 2^exponent` with a sign. -/
inductive Shape
  | notANumber
  | infinite (negative : Bool)
  | finite (negative : Bool) (mantissa : Nat) (exponent : Int)
  deriving DecidableEq, Repr

/-- The parts of a double, from its 64 bits: a sign, eleven of exponent, fifty-two of mantissa. -/
def shape (x : Float) : Shape :=
  let bits := x.toBits.toNat
  let negative := decide (Nat.pow 2 63 ≤ bits)
  let exponent : Nat := bits / Nat.pow 2 52 % Nat.pow 2 11
  let fraction : Nat := bits % Nat.pow 2 52
  if exponent = 2047 then if fraction = 0 then .infinite negative else .notANumber
  else if exponent = 0 then .finite negative fraction (-1074)
  else .finite negative (Nat.pow 2 52 + fraction) ((exponent : Int) - 1075)

/-- Neither infinite nor no number. -/
def isFinite (x : Float) : Bool :=
  match shape x with
  | .finite .. => true
  | _ => false

/-! ## 2. Order -/

/-- A magnitude with a sign. -/
def signed (negative : Bool) (n : Nat) : Int := if negative then -(n : Int) else n

/-- The place of a double in the order: its value in units of `2^-1074`. The infinities lie past
    the largest finite magnitude, which is below `2^2098` units. -/
def key? (x : Float) : Option Int :=
  match shape x with
  | .notANumber => none
  | .infinite negative => some (signed negative (Nat.pow 2 2098))
  | .finite negative mantissa exponent =>
    some (signed negative (mantissa * Nat.pow 2 (exponent + 1074).toNat))

/-- The order of two doubles; none when one of them is no number. -/
def compare? (x y : Float) : Option Ordering := do
  return compare (← key? x) (← key? y)

/-- A zero, of either sign. -/
def isZero (x : Float) : Bool := key? x == some 0

/-! ## 3. Remainder -/

/-- The double of `n` units of `2^-1074`. It is exact when `n` has no more than 53 bits besides
    trailing zeros, as the value of a double has. -/
def ofUnits (negative : Bool) (n : Nat) : Float :=
  let shift := n.log2 - 52
  let bits := shift * Nat.pow 2 52 + n / Nat.pow 2 shift
  Float.ofBits (UInt64.ofNat (if negative then Nat.pow 2 63 + bits else bits))

/-- The remainder of `x` by `y`: what is left of the magnitude of `x` after taking that of `y`
    from it as often as it goes, with the sign of `x`. Where there is none, no number. -/
def remainder (x y : Float) : Float :=
  match shape x, shape y with
  | .finite negative m e, .finite _ n f =>
    let divisor := n * Nat.pow 2 (f + 1074).toNat
    if divisor = 0 then 0.0 / 0.0
    else ofUnits negative (m * Nat.pow 2 (e + 1074).toNat % divisor)
  | .finite .., .infinite _ => x
  | _, _ => 0.0 / 0.0

end Sift.Double
