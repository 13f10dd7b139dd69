import Sift.Json.Basic
import Sift.Double.Exact
import Sift.Json.Source
import Sift.Numeral.Decimal
import Sift.Text.Escape

/-!
# Reading JSON

From the written form of a value to the value.

* A string must be UTF-8, and each of its escapes must name a character.
* An integer that fits 64 bits is kept exactly, except that a negative zero is a double. Every
  other number is a double, and must be finite. It is read quickly and not always to the nearest
  double: the digits that fit 64 bits, times or over a power of ten.
* Containers may stand inside one another as deep as there is room for.
* Of members with one name the last one counts, in the place of the first.
-/

namespace Sift

/-! ## 1. Numbers -/

namespace JsonNumber

/-- The digits of an integer that fit 64 bits with those that spell `n`, as a number, and how many
    are left out. -/
def whole : (n : Nat) → Bytes → Nat × Nat
  | n, [] => (n, 0)
  | n, b :: rest =>
    let more := n * 10 + (Numeral.digit? b).getD 0
    if more < UInt64.size then whole more rest else (n, rest.length + 1)

/-- The digits of a fraction that fit 64 bits with those that spell `n`, as a number, and how many
    they are. -/
def fraction : (n : Nat) → Bytes → Nat × Nat
  | n, [] => (n, 0)
  | n, b :: rest =>
    let more := n * 10 + (Numeral.digit? b).getD 0
    if more < UInt64.size then
      let (all, count) := fraction more rest
      (all, count + 1)
    else (n, 0)

/-- A positive power of ten. -/
def powerOfTen (n : Nat) : Float := Float.ofScientific 1 false n

/-- The greatest exponent of a power of ten that is a double. -/
def greatestPower : Nat := 308

/-- `x * 10^exponent` by one product or quotient where the power is a double, and else by
    quotients. None where that is past all doubles. -/
def scale? (x : Float) (exponent : Int) : Option Float :=
  if exponent.natAbs ≤ greatestPower then
    if 0 ≤ exponent then
      let y := x * powerOfTen exponent.natAbs
      if Double.isFinite y then some y else none
    else some (x / powerOfTen exponent.natAbs)
  else if Double.isZero x then some x
  else if 0 ≤ exponent then none
  else scale? (x / powerOfTen greatestPower) (exponent + greatestPower)
termination_by exponent.natAbs
decreasing_by simp only [greatestPower] at *; omega

/-- The greatest exponent that is worked out. With a greater one the number is zero or past all
    doubles. -/
def greatestExponent : Nat := Nat.pow 2 31 - 1

/-- The double `n * 10^(shift + exponent)`, for the `exponent` that a text gives after its mark. -/
def real? (n : Nat) (shift : Int) (exponent : Bytes) : Option Float :=
  let (minus, digits) := Numeral.sign (exponent.drop 1)
  let size := Numeral.valueOf digits
  if greatestExponent < size then if n ≠ 0 ∧ !minus then none else some 0.0
  else scale? (Float.ofNat n) (shift + (if minus then -(size : Int) else size))

/-- The number of an integer: a double where it does not fit, and for a negative zero. -/
def ofInteger (minus : Bool) (n : Nat) : JsonNumber :=
  if !minus then .natural (UInt64.ofNat n)
  else if n ≠ 0 ∧ n ≤ Nat.pow 2 63 then .negative (Int64.ofInt (-n))
  else .real (-Float.ofNat n)

/-- The number that the text of a number token writes. -/
def ofText? (text : Bytes) : Option JsonNumber :=
  let (minus, rest) := Numeral.sign text
  let (n, left) := whole 0 (Numeral.leading rest)
  let rest := Numeral.afterDigits rest
  if rest.isEmpty && left = 0 then some (ofInteger minus n)
  else
    let (n, count, exponent) :=
      match rest with
      | b :: more =>
        if b = '.'.toUInt8 then
          let (n, count) := fraction n (Numeral.leading more)
          (n, count, Numeral.afterDigits more)
        else (n, 0, rest)
      | [] => (n, 0, [])
    (real? n (left - count) exponent).map fun x => .real (if minus then -x else x)

end JsonNumber

/-! ## 2. Values -/

namespace Source

/-- The text of a body, if it is UTF-8 and all its escapes name characters. -/
def text? (body : Bytes) : Option String := do
  let chars ← Utf8.decode? body
  return String.ofList (← Text.Escape.strict? chars)

mutual

/-- The value of a form in which containers stand inside one another at most `room` deep. -/
def json? (room : Nat) : Source → Option Json
  | .null => some .null
  | .bool b => some (.bool b)
  | .number text => (JsonNumber.ofText? text).map .number
  | .string body => (text? body).map .string
  | .array elements =>
    if room = 0 then none else (jsonElements? (room - 1) elements).map .array
  | .object members =>
    if room = 0 then none
    else (jsonMembers? (room - 1) members).map fun found => .object (Json.putAll found)

/-- The values of the elements of an array. -/
def jsonElements? (room : Nat) : List Source → Option (List Json)
  | [] => some []
  | form :: rest => do return (← json? room form) :: (← jsonElements? room rest)

/-- The members of an object as they stand. -/
def jsonMembers? (room : Nat) : List (Bytes × Source) → Option (List (String × Json))
  | [] => some []
  | (name, form) :: rest => do
    return (← text? name, ← json? room form) :: (← jsonMembers? room rest)

end

end Source

end Sift
