import Sift.Numeral.Integer

/-!
# Doubles in decimal

Reading a decimal as the double nearest to it, a tie going to the even one. The text is a sign,
digits with or without a point, and an exponent, or one of the words for the infinities and for
what is no number. Any number of digits counts, and magnitudes past the largest double read as
infinite.
-/

namespace Sift.Numeral

/-- The digits that `bytes` start with. -/
def leading (bytes : Bytes) : Bytes := bytes.takeWhile (digit? · |>.isSome)

/-- What follows the digits that `bytes` start with. -/
def afterDigits (bytes : Bytes) : Bytes := bytes.dropWhile (digit? · |>.isSome)

/-- The number that digits spell; none at all spell zero. -/
def valueOf (digits : Bytes) : Nat := (digitsFrom? 0 digits).getD 0

/-- Whether two texts are the same up to the case of ASCII letters, the second being in lower
    case. -/
def isWord (bytes : Bytes) (word : String) : Bool :=
  bytes.map (fun b => if 0x41 ≤ b && b ≤ 0x5A then b + 0x20 else b) == Utf8.bytes word

/-- The double nearest to `n * 10^exponent`. Far past the range of doubles the answer is told
    from the number of digits. -/
def nearest (n : Nat) (exponent : Int) : Float :=
  let point := (Nat.toDigits 10 n).length + exponent
  if n = 0 then 0.0
  else if 400 < point then 1.0 / 0.0
  else if point < -400 then 0.0
  else Float.ofScientific n (exponent < 0) exponent.natAbs

/-- The exponent that `bytes` write after the digits, if they are one: zero where there is
    nothing. -/
def exponent? (bytes : Bytes) : Option Int :=
  match bytes with
  | [] => some 0
  | b :: rest =>
    if b = 'e'.toUInt8 ∨ b = 'E'.toUInt8 then do
      let (negative, digits) := sign rest
      let n ← digits? digits
      return if negative then -n else n
    else none

/-- The double that an unsigned text spells. -/
def magnitude? (bytes : Bytes) : Option Float :=
  let whole := leading bytes
  let rest := afterDigits bytes
  let (fraction, rest) :=
    match rest with
    | b :: more => if b = '.'.toUInt8 then (leading more, afterDigits more) else ([], rest)
    | [] => ([], [])
  if whole.isEmpty && fraction.isEmpty then none
  else (exponent? rest).map fun e => nearest (valueOf (whole ++ fraction)) (e - fraction.length)

/-- The double that `bytes` spell. -/
def float? (bytes : Bytes) : Option Float :=
  let (negative, rest) := sign bytes
  let magnitude :=
    if isWord rest "inf" || isWord rest "infinity" then some (1.0 / 0.0)
    else if isWord rest "nan" then some (0.0 / 0.0)
    else magnitude? rest
  magnitude.map fun x => if negative then -x else x

end Sift.Numeral
