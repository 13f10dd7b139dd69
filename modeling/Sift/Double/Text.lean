import Sift.Double.Shortest

/-!
# How a double is written

A finite double is written with the fewest digits that read back, and always so that it is seen
to be no integer: by a point, or by an exponent. Between the two bounds of `Style` it is written
positionally, and outside with one digit before the point and a signed exponent.
-/

namespace Sift.Double

/-- Where positional writing ends. The bounds are on the number of digits before the point, which
    is zero or negative for a fraction that starts with zeros. -/
structure Style where
  leastPoint : Int
  greatestPoint : Int

/-- Doubles from `10^-5` to below `10^16` are written positionally. -/
def style : Style := ⟨-4, 16⟩

/-- A decimal without trailing zeros among its digits. -/
def digitsOf (d : Scaled) : List Char × Int :=
  let all := Nat.toDigits 10 d.digits
  let kept := (all.reverse.dropWhile (· == '0')).reverse
  (kept, d.exponent + (all.length - kept.length : Nat))

/-- An integer with its sign, plus included. -/
def signedText (n : Int) : List Char :=
  (if n < 0 then '-' else '+') :: Nat.toDigits 10 n.natAbs

/-- A positive decimal in a style. -/
def Style.write (s : Style) (d : Scaled) : List Char :=
  let (digits, exponent) := digitsOf d
  let point := (digits.length : Int) + exponent
  let zeros (n : Int) := List.replicate n.toNat '0'
  if point < s.leastPoint ∨ s.greatestPoint < point then
    let fraction := if digits.length ≤ 1 then [] else '.' :: digits.drop 1
    digits.take 1 ++ fraction ++ 'e' :: signedText (point - 1)
  else if point ≤ 0 then '0' :: '.' :: zeros (-point) ++ digits
  else if exponent < 0 then digits.take point.toNat ++ '.' :: digits.drop point.toNat
  else digits ++ zeros exponent ++ ['.', '0']

/-- The text of a finite double; `none` for the others. -/
def text? (x : Float) : Option (List Char) :=
  match shape x with
  | .finite negative mantissa exponent =>
    let magnitude :=
      if mantissa = 0 then ['0', '.', '0'] else style.write (shortest mantissa exponent)
    some (if negative then '-' :: magnitude else magnitude)
  | _ => none

end Sift.Double
