import Sift.Json.Basic
import Sift.Double.Text
import Sift.Text.Escape

/-!
# JSON as text

The compact text of a value: no blanks, the shortest escapes, and doubles with the fewest digits
that read back.
-/

namespace Sift

/-- A number as text. What is no finite double has no text of its own and is written as null. -/
def JsonNumber.text : JsonNumber → List Char
  | .natural n => (toString n.toNat).toList
  | .negative n => (toString n.toInt).toList
  | .real x => (Double.text? x).getD "null".toList

namespace Json

/-- Texts one after the other, with a comma between two. -/
def listed : List (List Char) → List Char
  | [] => []
  | [text] => text
  | text :: rest => text ++ ',' :: listed rest

mutual

/-- A value as text. -/
def text : Json → List Char
  | .null => "null".toList
  | .bool b => (if b then "true" else "false").toList
  | .number n => n.text
  | .string s => Text.Escape.quoted s.toList
  | .array elements => '[' :: listed (elementTexts elements) ++ [']']
  | .object members => '\x7b' :: listed (memberTexts members) ++ ['\x7d']

/-- The texts of the elements of an array. -/
def elementTexts : List Json → List (List Char)
  | [] => []
  | value :: rest => text value :: elementTexts rest

/-- The texts of the members of an object, each its name, a colon and its value. -/
def memberTexts : List (String × Json) → List (List Char)
  | [] => []
  | (name, value) :: rest =>
    (Text.Escape.quoted name.toList ++ ':' :: text value) :: memberTexts rest

end
end Json

end Sift
