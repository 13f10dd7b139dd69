import Sift.Token
import Sift.Numeral.Decimal
import Sift.Double.Exact
import Sift.Text.Decoded

/-!
# Values

What an operand stands for while a document is matched. A value read from a document stays as it
is written there until a comparison needs more: a number keeps its text, a string its escapes, a
container its whole text. A value that an expression brings along or computes is kept ready:
words of 64 bits, doubles, plain text.

Two values mark failures: `missing`, a field that is not there, and `invalid`, the result of a
computation that has none. `rank` is the order of the kinds, by which values of unrelated kinds
are compared.
-/

namespace Sift

/-! ## 1. Values -/

/-- A value, as written in a document or as computed. -/
inductive Value
  /-- The result of a computation that has none. -/
  | invalid
  /-- A field that is not there. -/
  | missing
  | int (n : Int64)
  | uint (n : UInt64)
  /-- A negative integer of a document. -/
  | intText (text : Bytes)
  /-- Any other integer of a document. -/
  | uintText (text : Bytes)
  | float (x : Float)
  /-- A number of a document with a fraction or an exponent. -/
  | floatText (text : Bytes)
  /-- Plain text. -/
  | string (s : String)
  /-- The body of a string of a document that is not UTF-8. -/
  | byteString (bytes : Bytes)
  /-- The body of a string of a document, escapes intact. -/
  | escString (body : String)
  | binary (bytes : Bytes)
  | null
  | bool (b : Bool)
  /-- The text of an array, brackets included. -/
  | array (text : Bytes)
  /-- The text of an object, braces included. -/
  | object (text : Bytes)

/-- A number, ready for computation. -/
inductive Number
  | int (n : Int64)
  | uint (n : UInt64)
  | float (x : Float)

namespace Number

/-- The value of an integer. -/
def integer? : Number → Option Int
  | .int n => some n.toInt
  | .uint n => some n.toNat
  | .float _ => none

/-- The nearest double. -/
def toFloat : Number → Float
  | .int n => Float.ofInt n.toInt
  | .uint n => Float.ofNat n.toNat
  | .float x => x

end Number

namespace Value

/-! ## 2. Kinds -/

/-- The place of a value's kind in the order of kinds. -/
def rank : Value → Nat
  | .invalid => 0
  | .missing => 1
  | .int _ => 2
  | .uint _ => 3
  | .intText _ => 4
  | .uintText _ => 5
  | .float _ => 6
  | .floatText _ => 7
  | .string _ => 8
  | .byteString _ => 9
  | .escString _ => 10
  | .binary _ => 11
  | .null => 12
  | .bool true => 13
  | .bool false => 14
  | .array _ => 15
  | .object _ => 16

/-- A number of any representation, readable or not. -/
def isNumeric : Value → Bool
  | .int _ | .uint _ | .intText _ | .uintText _ | .float _ | .floatText _ => true
  | _ => false

/-- A string of any representation. -/
def isStringLike : Value → Bool
  | .string _ | .byteString _ | .escString _ => true
  | _ => false

/-- A field that is not there. -/
def isMissing : Value → Bool
  | .missing => true
  | _ => false

/-- A result that is none. -/
def isInvalid : Value → Bool
  | .invalid => true
  | _ => false

/-- The values no comparison succeeds on: missing and invalid. -/
def isAbsent (v : Value) : Bool := v.isMissing || v.isInvalid

/-- The truth value `true` and nothing else. -/
def isTrue : Value → Bool
  | .bool true => true
  | _ => false

/-! ## 3. Building values -/

/-- The value of a computed double. Only finite ones are values. -/
def ofFloat (x : Float) : Value := if Double.isFinite x then .float x else .invalid

/-- The value of a computed number. -/
def ofNumber : Number → Value
  | .int n => .int n
  | .uint n => .uint n
  | .float x => ofFloat x

/-- The value of a token of a document. Only a scalar token has one. -/
def ofToken (t : Token) : Value :=
  match t.kind with
  | .string =>
    match Utf8.text? t.body with
    | some s => .string s
    | none => .byteString t.body
  | .escString =>
    match Utf8.text? t.body with
    | some s => .escString s
    | none => .byteString t.body
  | .integer => if t.text.head? = some '-'.toUInt8 then .intText t.text else .uintText t.text
  | .number => .floatText t.text
  | .null => .null
  | .true => .bool true
  | .false => .bool false
  | _ => .invalid

/-! ## 4. Reading values -/

/-- The number that a value is, if it is one. An integer that does not fit its word is read as the
    nearest double. -/
def number? : Value → Option Number
  | .int n => some (.int n)
  | .uint n => some (.uint n)
  | .float x => some (.float x)
  | .intText text =>
    match Numeral.int64? text with
    | some n => some (.int n)
    | none => (Numeral.float? text).map .float
  | .uintText text =>
    match Numeral.uint64? text with
    | some n => some (.uint n)
    | none => (Numeral.float? text).map .float
  | .floatText text => (Numeral.float? text).map .float
  | _ => none

/-- The double nearest to the number that a value is. -/
def float? (v : Value) : Option Float := v.number?.map Number.toFloat

/-- The integer that a value is, if it fits a signed word. -/
def int64? (v : Value) : Option Int := do
  let n ← (← v.number?).integer?
  if Numeral.fitsSigned n then some n else none

/-- The truth value that a value is. -/
def bool? : Value → Option Bool
  | .bool b => some b
  | _ => none

/-- The plain text of an escaped body. -/
def unescaped (body : String) : String := String.ofList (Text.Escape.unescape body.toList)

/-- The bytes of the text that a string stands for, to be asked for one by one. -/
def decoded : Value → Text.Decoded
  | .string s => .raw (Utf8.bytes s)
  | .byteString bytes => .raw bytes
  | .escString body => .ofBody body
  | _ => .raw []

/-- The same value, ready for computation: numbers read, escapes resolved. -/
def settled : Value → Value
  | v@(.intText _) | v@(.uintText _) | v@(.floatText _) =>
    match v.number? with
    | some n => ofNumber n
    | none => .invalid
  | .escString body => .string (unescaped body)
  | v => v

end Value

end Sift
