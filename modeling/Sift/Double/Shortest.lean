import Sift.Double.Exact

/-!
# The fewest digits that read back

Many decimals read as the same double: those in the interval that reaches halfway to its two
neighbours, ends included when the mantissa is even, because a tie goes to the even one.
`Double.shortest` finds the decimal with the fewest digits in that interval, and of those the one
nearest to the double.

It looks at the grids of one digit, two digits, and so on up to seventeen, which always suffice.
On each only the two points beside the double can lie in the interval if any does. All of it is
arithmetic on natural numbers.
-/

namespace Sift.Double

/-- The decimal `digits * 10^exponent`. -/
structure Scaled where
  digits : Nat
  exponent : Int
  deriving DecidableEq, Repr

/-- The number of decimal digits of `n`. -/
def width (n : Nat) : Nat := (Nat.toDigits 10 n).length

/-- A positive quotient of naturals. -/
structure Ratio where
  above : Nat
  below : Nat

/-- The quotient `n * 2^twos * 10^tens`, for a negative exponent by putting the power below. -/
def Ratio.of (n : Nat) (twos tens : Int) : Ratio :=
  ⟨n * Nat.pow 2 twos.toNat * Nat.pow 10 tens.toNat,
    Nat.pow 2 (-twos).toNat * Nat.pow 10 (-tens).toNat⟩

/-- The exponent of the leading decimal digit: the `e` with `10^e ≤ r < 10^(e+1)`. -/
def Ratio.magnitude (r : Ratio) : Int :=
  let e : Int := (width r.above : Int) - width r.below
  if r.below * Nat.pow 10 e.toNat ≤ r.above * Nat.pow 10 (-e).toNat then e else e - 1

/-- A point of the grid of multiples of `10^tens` that reads as the double `mantissa * 2^twos`, if
    there is one: the nearer of two, and of two equally near the even one. The double and the ends
    of its interval are told in quarters of its last place. -/
def onGrid? (mantissa : Nat) (twos tens : Int) : Option Nat :=
  let scale := Ratio.of 1 (twos - 2) (-tens)
  let gapBelow := if mantissa = Nat.pow 2 52 ∧ -1074 < twos then 1 else 2
  let low := (4 * mantissa - gapBelow) * scale.above
  let value := 4 * mantissa * scale.above
  let high := (4 * mantissa + 2) * scale.above
  let reads (point : Nat) : Bool :=
    let p := point * scale.below
    if mantissa % 2 = 0 then low ≤ p && p ≤ high else low < p && p < high
  let floor := value / scale.below
  match reads floor, reads (floor + 1) with
  | true, true =>
    let gap := 2 * (value % scale.below)
    if gap < scale.below ∨ gap = scale.below ∧ floor % 2 = 0 then some floor
    else some (floor + 1)
  | true, false => some floor
  | false, true => some (floor + 1)
  | false, false => none

/-- The first of the grids of `17 - more` digits and up that has a point for the double. -/
def fromGrid (mantissa : Nat) (twos magnitude : Int) : (more : Nat) → Scaled
  | 0 => ⟨(onGrid? mantissa twos (magnitude - 16)).getD 0, magnitude - 16⟩
  | more + 1 =>
    let tens := magnitude - (15 - more)
    match onGrid? mantissa twos tens with
    | some digits => ⟨digits, tens⟩
    | none => fromGrid mantissa twos magnitude more

/-- **The shortest decimal that reads as `mantissa * 2^twos`**, which is positive. -/
def shortest (mantissa : Nat) (twos : Int) : Scaled :=
  fromGrid mantissa twos (Ratio.of mantissa twos 0).magnitude 16

end Sift.Double
