import Sift.Decimal

/-!
# Doubles as decimals of fixed size

A double is brought to a decimal of at most 28 places whose digits form a number below `2^96`. Most
doubles of that size are such decimals or are cut to one; from `2^96` on there is none, and a
magnitude below half of the last place becomes zero.

The way from the double `m * 2^e` moves its factors of two into factors of ten: a two divided out
is a five multiplied in and a place gained. Where the digits would outgrow 96 bits, a factor of
two is dropped from them instead.
-/

namespace Sift.Double.Fixed

/-- The bound of the digits. -/
def bound : Nat := Nat.pow 2 96

/-- On the way: `digits * 10^tens`, with `fives` still to be multiplied in. -/
structure Scaling where
  digits : Nat
  tens : Int

/-- Brings in `n` factors of five: by a two divided out, which is a ten gained, as long as there
    is one; else by multiplying while the digits stay small enough; else by a two cut off. -/
def raise : (n : Nat) → Scaling → Scaling
  | 0, s => s
  | n + 1, s =>
    if s.digits % 2 = 0 then raise n ⟨s.digits / 2, s.tens + 1⟩
    else if s.digits * 5 < bound then raise n ⟨s.digits * 5, s.tens⟩
    else raise n ⟨s.digits / 2, s.tens + 1⟩

/-- Takes out `n` factors of five: by a two multiplied in, which is a ten taken, while the digits
    stay small enough; else by dividing. -/
def lower : (n : Nat) → Scaling → Scaling
  | 0, s => s
  | n + 1, s =>
    if s.digits < Nat.pow 2 95 then lower n ⟨s.digits * 2, s.tens - 1⟩
    else lower n ⟨s.digits / 5, s.tens⟩

/-- Multiplies in `n` factors of ten, if the digits stay below the bound. -/
def grow? : (n : Nat) → Nat → Option Nat
  | 0, digits => some digits
  | n + 1, digits => if digits * 10 < bound then grow? n (digits * 10) else none

/-- Cuts off `n` digits, one at a time, rounding after each by the digit cut off. Where nothing is
    left, the last digit cut off does not round up either. -/
def cut : (n : Nat) → Nat → Nat
  | 0, digits => digits
  | n + 1, digits =>
    let kept := digits / 10
    if kept = 0 then 0 else cut n (if 5 ≤ digits % 10 then kept + 1 else kept)

/-- The greatest number of places. -/
def mostPlaces : Nat := 28

/-- The decimal of a double, if it is finite and below the bound. -/
def ofFloat? (x : Float) : Option Decimal :=
  match shape x with
  | .finite negative mantissa exponent =>
    if mantissa = 0 then some ⟨negative, 0, 0⟩
    else
      let s := lower exponent.toNat (raise (-exponent).toNat ⟨mantissa, exponent⟩)
      if 0 < s.tens then (grow? s.tens.toNat s.digits).map (⟨negative, ·, 0⟩)
      else
        let places := (-s.tens).toNat
        some ⟨negative, cut (places - mostPlaces) s.digits, min places mostPlaces⟩
  | _ => none

end Sift.Double.Fixed
