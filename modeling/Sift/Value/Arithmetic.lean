import Sift.Value

/-!
# Arithmetic on values

Integers are computed exactly and kept as integers while they fit a word: of two unsigned operands
the unsigned word is tried first, otherwise the signed one. What fits neither word, and every
result with a double in it, is a double. A quotient of integers that does not come out even is a
double as well. Division by zero, and an operand that is no number, give `invalid`.
-/

namespace Sift.Value

/-- An operation on two numbers. -/
inductive Operation
  | add | sub | mul | div
  /-- The remainder, with the sign of the dividend. -/
  | rem
  deriving DecidableEq, Repr

/-- Integers are worked out exactly up to 128 bits, and as doubles from there on. -/
def fitsWide (n : Int) : Bool := -(Nat.pow 2 127 : Int) ≤ n && n < Nat.pow 2 127

/-- An integer as a value. -/
def ofInteger (unsignedFirst : Bool) (n : Int) : Value :=
  if unsignedFirst && Numeral.fitsUnsigned n then .uint (UInt64.ofNat n.toNat)
  else if Numeral.fitsSigned n then .int (Int64.ofInt n)
  else if Numeral.fitsUnsigned n then .uint (UInt64.ofNat n.toNat)
  else ofFloat (Float.ofInt n)

namespace Operation

/-- Whether the operation has a result only for a second operand that is not zero. -/
def divides : Operation → Bool
  | .div | .rem => true
  | _ => false

/-- On doubles. -/
def onFloats (op : Operation) (x y : Float) : Value :=
  if op.divides && Double.isZero y then .invalid
  else
    ofFloat <|
      match op with
      | .add => x + y
      | .sub => x - y
      | .mul => x * y
      | .div => x / y
      | .rem => Double.remainder x y

/-- On integers, where the result is one. -/
def onIntegers? (op : Operation) (m n : Int) : Option Int :=
  match op with
  | .add => some (m + n)
  | .sub => some (m - n)
  | .mul => some (m * n)
  | .div => if m.tmod n = 0 then some (m.tdiv n) else none
  | .rem => some (m.tmod n)

/-- On numbers. -/
def onNumbers (op : Operation) (a b : Number) : Value :=
  match a.integer?, b.integer? with
  | some m, some n =>
    if op.divides && n == 0 then .invalid
    else
      match op.onIntegers? m n with
      | some z =>
        if fitsWide z then
          ofInteger (match a, b with | .uint _, .uint _ => true | _, _ => false) z
        else op.onFloats a.toFloat b.toFloat
      | none => op.onFloats a.toFloat b.toFloat
  | _, _ => op.onFloats a.toFloat b.toFloat

/-- **On values.** -/
def apply (op : Operation) (a b : Value) : Value :=
  match a.number?, b.number? with
  | some m, some n => op.onNumbers m n
  | _, _ => .invalid

end Operation

/-- The negative of a value. -/
def neg (a : Value) : Value :=
  match a.number? with
  | some (.float x) => ofFloat (-x)
  | some (.int n) => ofInteger false (-n.toInt)
  | some (.uint n) => ofInteger false (-(n.toNat : Int))
  | none => .invalid

end Sift.Value
