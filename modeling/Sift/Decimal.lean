import Sift.Double.Exact

/-!
# Decimals

To be compared with an integer, a double is first brought to a decimal, as far as it is in reach of
one. Which decimal that is, is told by some `Decimals`; decimals themselves compare by their value.
-/

namespace Sift

/-- The decimal `digits / 10^places`. -/
structure Decimal where
  negative : Bool
  digits : Nat
  places : Nat
  deriving DecidableEq, Repr

/-- How a decimal compares with an integer. -/
def Decimal.compareInt (d : Decimal) (n : Int) : Ordering :=
  compare (Double.signed d.negative d.digits) (n * Nat.pow 10 d.places)

/-- A way from doubles to decimals. -/
structure Decimals where
  /-- The decimal of a double, if there is one. -/
  ofFloat? : Float → Option Decimal

end Sift
