import Sift.Json.Codec
import Sift.Token.Stream

/-!
# The form of a text

`Source.ofTokens?` builds the form of a text of JSON in one pass over its tokens, with the
containers that are still open on a stack.
-/

namespace Sift.Source

/-! ## 1. Scalars -/

/-- The form of a token that is a value by itself. -/
def ofToken? (t : Token) : Option Source :=
  match t.kind with
  | .null => some .null
  | .true => some (.bool true)
  | .false => some (.bool false)
  | .integer | .number => some (.number t.text)
  | .string | .escString => some (.string t.body)
  | _ => none

/-! ## 2. One pass over the tokens -/

/-- A container that is still open: what it holds so far, the last first. -/
inductive Frame
  | array (before : List Source)
  | object (before : List (Bytes × Source)) (name : Bytes)

/-- What has been read, by what may come next. -/
inductive Reading
  /-- A value. -/
  | value (stack : List Frame)
  /-- The first element of an array, or its end. -/
  | element (stack : List Frame)
  /-- A name. The end of the object as well, if `mayEnd`. -/
  | name (before : List (Bytes × Source)) (mayEnd : Bool) (stack : List Frame)
  /-- The colon after a name. -/
  | colon (before : List (Bytes × Source)) (name : Bytes) (stack : List Frame)
  /-- What follows a complete value. -/
  | after (value : Source) (stack : List Frame)

/-- Begins a value with its first token. -/
def begin? (stack : List Frame) (t : Token) : Option Reading :=
  match t.kind with
  | .objectStart => some (.name [] true stack)
  | .arrayStart => some (.element (.array [] :: stack))
  | _ => (ofToken? t).map (.after · stack)

/-- One more token. -/
def step? : Reading → Token → Option Reading
  | .value stack, t => begin? stack t
  | .element stack, t =>
    if t.kind = .arrayEnd then some (.after (.array []) (stack.drop 1)) else begin? stack t
  | .name before mayEnd stack, t =>
    if t.kind.isString then some (.colon before t.body stack)
    else if mayEnd && t.kind = .objectEnd then some (.after (.object before.reverse) stack)
    else none
  | .colon before name stack, t =>
    if t.kind = .keyDelim then some (.value (.object before name :: stack)) else none
  | .after value (.array before :: stack), t =>
    if t.kind = .listDelim then some (.value (.array (value :: before) :: stack))
    else if t.kind = .arrayEnd then some (.after (.array (value :: before).reverse) stack)
    else none
  | .after value (.object before name :: stack), t =>
    if t.kind = .listDelim then some (.name ((name, value) :: before) false stack)
    else if t.kind = .objectEnd then
      some (.after (.object ((name, value) :: before).reverse) stack)
    else none
  | .after _ [], _ => none

/-- The form that the tokens complete, if the end then follows. -/
def complete? : Reading → List Token → Option Source
  | _, [] => none
  | .after value [], [t] => if t.kind = .finish then some value else none
  | r, t :: rest =>
    match step? r t with
    | some r => complete? r rest
    | none => none

/-- The form of a whole text, from its tokens. -/
def ofTokens? (tokens : List Token) : Option Source := complete? (.value []) tokens

/-- **The form of a text**, if it is one value and gaps. -/
def ofBytes? (bytes : Bytes) : Option Source := ofTokens? (Token.stream 0 bytes)

end Sift.Source
