import Sift.Value
import Sift.Json.Codec
import Sift.Double.Exact

/-!
# Values and JSON

A literal of an expression is a value of JSON, and becomes the value that the same text in a
document would be compared with: integers are words, containers are kept as compact text. Going
back, the text of a number or container is read again, and what cannot be read is null.
-/

namespace Sift.Value

/-- The value of a literal. -/
def ofJson (J : Json.Codec) (v : Json) : Value :=
  match v with
  | .null => .null
  | .bool b => .bool b
  | .number (.natural n) =>
    if Numeral.fitsSigned n.toNat then .int (Int64.ofInt n.toNat) else .uint n
  | .number (.negative n) => .int n
  | .number (.real x) => ofFloat x
  | .string s => .string s
  | .array _ => .array (Utf8.encode (J.text v))
  | .object _ => .object (Utf8.encode (J.text v))

/-- The value as JSON. -/
def toJson (J : Json.Codec) : Value → Json
  | .invalid | .missing | .null => .null
  | .bool b => .bool b
  | .int n =>
    if n.toInt < 0 then .number (.negative n) else .number (.natural (UInt64.ofNat n.toInt.toNat))
  | .uint n => .number (.natural n)
  | .float x => if Double.isFinite x then .number (.real x) else .null
  | .intText text | .uintText text | .floatText text | .array text | .object text =>
    (J.ofBytes? text).getD .null
  | .string s => .string s
  | .escString body => .string (unescaped body)
  | .byteString bytes | .binary bytes => .string (String.ofList (Utf8.decodeLossy bytes))

end Sift.Value
