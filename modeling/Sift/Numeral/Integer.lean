import Sift.Text.Utf8

/-!
# Integers in decimal

Reading the digits of an integer, for a signed and for an unsigned word of 64 bits. A sign may
stand before the digits, a plus as well; the unsigned word takes no minus, not even before a zero.
-/

namespace Sift.Numeral

/-- The value of a decimal digit. -/
def digit? (b : UInt8) : Option Nat :=
  if 0x30 ≤ b && b ≤ 0x39 then some (b.toNat - 0x30) else none

/-- The number that digits spell after those that spell `n`. -/
def digitsFrom? : (n : Nat) → Bytes → Option Nat
  | n, [] => some n
  | n, b :: rest =>
    match digit? b with
    | some d => digitsFrom? (n * 10 + d) rest
    | none => none

/-- The number that one digit or more spell. -/
def digits? (bytes : Bytes) : Option Nat :=
  if bytes.isEmpty then none else digitsFrom? 0 bytes

/-- Whether a minus stands first, and what follows the sign. -/
def sign : Bytes → Bool × Bytes
  | [] => (false, [])
  | b :: rest =>
    if b = '-'.toUInt8 then (true, rest)
    else if b = '+'.toUInt8 then (false, rest)
    else (false, b :: rest)

/-- Whether a number fits a signed word. -/
def fitsSigned (n : Int) : Bool := Int64.minValue.toInt ≤ n && n ≤ Int64.maxValue.toInt

/-- Whether a number fits an unsigned word. -/
def fitsUnsigned (n : Int) : Bool := 0 ≤ n && n < UInt64.size

/-- The signed word that `bytes` spell. -/
def int64? (bytes : Bytes) : Option Int64 := do
  let (negative, digits) := sign bytes
  let n ← digits? digits
  let value : Int := if negative then -n else n
  if fitsSigned value then some (Int64.ofInt value) else none

/-- The unsigned word that `bytes` spell. -/
def uint64? (bytes : Bytes) : Option UInt64 := do
  let (negative, digits) := sign bytes
  let n ← digits? digits
  if !negative && fitsUnsigned n then some (UInt64.ofNat n) else none

end Sift.Numeral
