import Sift.Value
import Sift.Decimal
import Sift.Token.Stream

/-!
# The order of values

* Numbers of any representation compare by their value. A double meets an integer as a decimal
  (`Decimals`), or where that is out of reach as a double.
* Strings compare by the bytes of the text they stand for, escapes resolved.
* Arrays compare with arrays and objects with objects along their tokens, scalar by scalar. A
  closing bracket comes before everything else, so a container comes before a longer one that
  begins like it. Text that cannot be read so compares byte by byte.
* All other pairs compare by kind, except that the truth value `true` equals the string `true`.
-/

namespace Sift.Value

/-! ## 1. Numbers -/

/-- A double and an integer. What is no number counts as equal to every integer. -/
def compareFloatInt (D : Decimals) (x : Float) (n : Int) : Ordering :=
  match D.ofFloat? x with
  | some d => d.compareInt n
  | none => (Double.compare? x (Float.ofInt n)).getD .eq

/-- Two numbers. -/
def compareNumbers (D : Decimals) (a b : Number) : Ordering :=
  match a, b with
  | .float x, .float y => (Double.compare? x y).getD .eq
  | .float x, .int n => compareFloatInt D x n.toInt
  | .float x, .uint n => compareFloatInt D x n.toNat
  | .int n, .float y => (compareFloatInt D y n.toInt).swap
  | .uint n, .float y => (compareFloatInt D y n.toNat).swap
  | .int m, .int n => compare m.toInt n.toInt
  | .int m, .uint n => compare m.toInt (n.toNat : Int)
  | .uint m, .int n => compare (m.toNat : Int) n.toInt
  | .uint m, .uint n => compare m.toNat n.toNat

/-! ## 2. Scalars -/

/-- Two texts, byte by byte. -/
def compareBytes (a b : Bytes) : Ordering := List.compareLex compare a b

/-- Whether a string stands for the text `true`. -/
def spellsTrue (v : Value) : Bool :=
  v.isStringLike && v.decoded.compare (.raw (Utf8.bytes "true")) == .eq

/-- Two values of which not both are arrays and not both objects. -/
def compareScalars (D : Decimals) (a b : Value) : Ordering :=
  match a.number?, b.number? with
  | some m, some n => compareNumbers D m n
  | _, _ =>
    if a.isStringLike && b.isStringLike then a.decoded.compare b.decoded
    else if a.isTrue && b.spellsTrue || b.isTrue && a.spellsTrue then .eq
    else
      match a, b with
      | .binary l, .binary r => compareBytes l r
      | _, _ => compare a.rank b.rank

/-! ## 3. Containers -/

/-- The order of tokens where the structure of two containers differs. -/
def structuralRank : TokenKind → Nat
  | .finish => 0
  | .objectEnd | .arrayEnd => 1
  | .listDelim => 2
  | .keyDelim => 3
  | .arrayStart => 5
  | .objectStart => 6
  | _ => 4

/-- Two texts along their tokens; none where one stops short of its end. -/
def compareTokens? (D : Decimals) : List Token → List Token → Option Ordering
  | a :: l, b :: r =>
    if a.kind.isScalar && b.kind.isScalar then
      match compareScalars D (ofToken a) (ofToken b) with
      | .eq => compareTokens? D l r
      | o => some o
    else if a.kind ≠ b.kind then some (compare (structuralRank a.kind) (structuralRank b.kind))
    else if a.kind = .finish then some .eq
    else compareTokens? D l r
  | _, _ => none

/-- The texts of two containers. -/
def compareContainers (D : Decimals) (l r : Bytes) : Ordering :=
  (compareTokens? D (Token.stream 0 l) (Token.stream 0 r)).getD (compareBytes l r)

/-! ## 4. All values -/

/-- **The order of two values.** -/
def compare (D : Decimals) (a b : Value) : Ordering :=
  match a, b with
  | .array l, .array r | .object l, .object r => compareContainers D l r
  | a, b => compareScalars D a b

/-- Whether two values are equal. Missing and invalid equal nothing, themselves included. -/
def equals (D : Decimals) (a b : Value) : Bool :=
  !a.isAbsent && !b.isAbsent && a.compare D b == .eq

end Sift.Value
