/-!
# JSON values

The values that literals of an expression are, and that a value is turned into to be printed. A
number is kept as it can be: a natural number or a negative integer of 64 bits, and else a double.
The members of an object have an order, the one they were written in, and no two of them have one
name (`Json.put`).
-/

namespace Sift

/-- A number of JSON. -/
inductive JsonNumber
  | natural (n : UInt64)
  | negative (n : Int64)
  | real (x : Float)

/-- A value of JSON. -/
inductive Json
  | null
  | bool (b : Bool)
  | number (n : JsonNumber)
  | string (s : String)
  | array (elements : List Json)
  | object (members : List (String × Json))

namespace Json

/-- The members with one more. A name that is there already keeps its place and takes the new
    value. -/
def put (name : String) (value : Json) : List (String × Json) → List (String × Json)
  | [] => [(name, value)]
  | (other, old) :: rest =>
    if other = name then (name, value) :: rest else (other, old) :: put name value rest

/-- The members after writing several, one after the other. -/
def putAll (members : List (String × Json)) : List (String × Json) :=
  members.foldl (fun done (name, value) => put name value done) []

end Json

end Sift
