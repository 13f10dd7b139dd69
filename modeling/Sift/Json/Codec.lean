import Sift.Json.Basic
import Sift.Text.Utf8

/-!
# Reading and writing JSON

A text of JSON is read in two steps. Its written form (`Source`) has the containers taken apart, but
every number and string still as it was written, and every member of every object, repeated names
included. What a number or a string stands for is decided by who reads the form, and a part that
nobody reads is never decoded.

How values are written, which form a text has and what stands in a form is told by a `Json.Codec`.
-/

namespace Sift

/-- The written form of a value. Numbers keep their text, strings and names their bodies. -/
inductive Source
  | null
  | bool (b : Bool)
  | number (text : Bytes)
  | string (body : Bytes)
  | array (elements : List Source)
  | object (members : List (Bytes × Source))

namespace Json

/-- How deep containers may stand inside one another. -/
def mostContainers : Nat := 127

/-- A way to write values of JSON, and to read them. -/
structure Codec where
  /-- The text of a value. -/
  text : Json → List Char
  /-- The form of a text, if it is one of JSON. -/
  form? : Bytes → Option Source
  /-- The string that a body stands for. -/
  string? : Bytes → Option String
  /-- The number that the text of a number writes. -/
  number? : Bytes → Option JsonNumber
  /-- The value of a form in which containers stand inside one another at most `room` deep. -/
  value? : (room : Nat) → Source → Option Json
  /-- How deep containers may stand inside one another in a text. -/
  room : Nat

namespace Codec

variable (J : Codec)

/-- A value as a string. -/
def toText (v : Json) : String := String.ofList (J.text v)

/-- The value that a text writes. -/
def ofBytes? (bytes : Bytes) : Option Json := do J.value? J.room (← J.form? bytes)

end Codec

end Json

end Sift
