import Sift.Expr
import Sift.Json.Codec

/-!
# Expressions as text

Expressions are written in JSON. A constant is its name as a string; any other expression is an
object of one member, whose name says what kind of expression it is and whose value holds its
parts. Parts are the members of an object, or the elements of an array in their fixed order.

Reading accepts a little more than writing produces: members in any order and members of other
names among the parts, a constant as a member with the value null, a field without its path. A
part that is missing, or there twice, is refused.
-/

namespace Sift

namespace Expr

/-! ## 1. Writing -/

/-- The name of a kind of loop. -/
def loopTag : LoopMode → String
  | .any => "any_in"
  | .every => "every_in"
  | .anyEvery => "any_every_in"

/-- An object of one member. -/
def tagged (name : String) (v : Json) : Json := .object [(name, v)]

/-- A variable as JSON. -/
def variableJson (v : Variable) : Json := .number (.natural v)

mutual

/-- An expression as JSON. -/
def toJson : Expr → Json
  | .truth b => .string (if b then "true" else "false")
  | .value v => tagged "value" v
  | .field f =>
    tagged "field"
      (.object [("root", variableJson f.root), ("path", .array (f.path.map Json.string))])
  | .func f params =>
    tagged "func" (.object [("name", .string f.name), ("params", .array (toJsons params))])
  | .not e => tagged "not" e.toJson
  | .and es => tagged "and" (.array (toJsons es))
  | .or es => tagged "or" (.array (toJsons es))
  | .loop mode var target body =>
    tagged (loopTag mode)
      (.object [("var", variableJson var), ("target", target.toJson), ("body", body.toJson)])
  | .present e => tagged "exists" e.toJson
  | .absent e => tagged "not_exists" e.toJson
  | .relation r lhs rhs =>
    tagged (Operator.relation r).name (.object [("lhs", lhs.toJson), ("rhs", rhs.toJson)])
  | .like lhs rhs => tagged "like" (.object [("lhs", lhs.toJson), ("rhs", rhs.toJson)])

/-- Several expressions as JSON. -/
def toJsons : List Expr → List Json
  | [] => []
  | e :: rest => e.toJson :: toJsons rest

end

/-- **The text of an expression.** -/
def toText (J : Json.Codec) (e : Expr) : String := J.toText e.toJson

/-! ## 2. Reading parts -/

/-- The parts of an expression, in the order of `names`, from the members or the elements that
    give them. A part may be missing at first; one that is given twice is refused, and so is an
    element too many. -/
def parts? (J : Json.Codec) (names : List String) : Source → Option (List (Option Source))
  | .array elements =>
    if elements.length ≤ names.length then
      some (elements.map some ++ List.replicate (names.length - elements.length) none)
    else none
  | .object members => do
    let named ← members.mapM fun (name, form) => do return (← J.string? name, form)
    names.mapM fun name =>
      match named.filter (·.1 = name) with
      | [] => some none
      | [(_, form)] => some (some form)
      | _ => none
  | _ => none

/-- Every part, if none is missing. -/
def allParts? (J : Json.Codec) (names : List String) (form : Source) : Option (List Source) := do
  (← parts? J names form).mapM id

/-- A form that is a string, as a string. -/
def string? (J : Json.Codec) : Source → Option String
  | .string body => J.string? body
  | _ => none

/-- The one member of an object. -/
def member? (J : Json.Codec) : Source → Option (String × Source)
  | .object [(name, form)] => do return (← J.string? name, form)
  | _ => none

/-- A name alone: a string, or a member of that name with the value null, where a container has
    room. -/
def name? (J : Json.Codec) (room : Nat) (form : Source) : Option String :=
  match string? J form, member? J form with
  | some name, _ => some name
  | none, some (name, .null) => if room = 0 then none else some name
  | none, _ => none

/-- A variable. -/
def var? (J : Json.Codec) : Source → Option Variable
  | .number text =>
    match J.number? text with
    | some (.natural n) => some n
    | _ => none
  | _ => none

/-- A path, given as an array of names. -/
def path? (J : Json.Codec) (room : Nat) : Source → Option Path
  | .array elements => if room = 0 then none else elements.mapM (string? J)
  | _ => none

/-- A field, from its parts. A path that is missing is empty. -/
def field? (J : Json.Codec) (room : Nat) (form : Source) : Option Field := do
  match ← parts? J ["root", "path"] form with
  | [some root, path] =>
    let path ← match path with
      | some path => path? J room path
      | none => some []
    return ⟨← var? J root, path⟩
  | _ => none

/-- The elements of an array. -/
def elements? : Source → Option (List Source)
  | .array elements => some elements
  | _ => none

/-! ## 3. Reading expressions -/

/-- A constant, by its name. -/
def constant? : String → Option Expr
  | "true" => some (.truth true)
  | "false" => some (.truth false)
  | _ => none

/-- The relation of a name. -/
def relation? (name : String) : Option Relation :=
  match Operator.ofName? name with
  | some (.relation r) => some r
  | _ => none

/-- The mode of a kind of loop. -/
def loopMode? (name : String) : Option LoopMode :=
  [LoopMode.any, .every, .anyEvery].find? (loopTag · = name)

/-- The expression of a form, in which containers stand inside one another at most `room` deep.
    The object around an expression takes one, and the container of its parts another. -/
def ofSource? (J : Json.Codec) : (room : Nat) → Source → Option Expr
  | 0, form => (string? J form).bind constant?
  | room + 1, form =>
    match string? J form with
    | some name => constant? name
    | none => do
      let (kind, form) ← member? J form
      match kind with
      | "true" | "false" =>
        match form with
        | .null => constant? kind
        | _ => none
      | "value" => return .value (← J.value? room form)
      | "not" => return .not (← ofSource? J room form)
      | "exists" => return .present (← ofSource? J room form)
      | "not_exists" => return .absent (← ofSource? J room form)
      | kind =>
        match room with
        | 0 => none
        | inner + 1 =>
          match kind with
          | "field" => return .field (← field? J inner form)
          | "and" => return .and (← (← elements? form).mapM (ofSource? J inner))
          | "or" => return .or (← (← elements? form).mapM (ofSource? J inner))
          | "func" =>
            match ← allParts? J ["name", "params"] form with
            | [name, params] =>
              match inner with
              | 0 => none
              | within + 1 =>
                return .func (← Function.ofName? (← name? J inner name))
                  (← (← elements? params).mapM (ofSource? J within))
            | _ => none
          | "like" =>
            match ← allParts? J ["lhs", "rhs"] form with
            | [lhs, rhs] => return .like (← ofSource? J inner lhs) (← ofSource? J inner rhs)
            | _ => none
          | kind =>
            match relation? kind, loopMode? kind with
            | some r, _ =>
              match ← allParts? J ["lhs", "rhs"] form with
              | [lhs, rhs] => return .relation r (← ofSource? J inner lhs) (← ofSource? J inner rhs)
              | _ => none
            | none, some mode =>
              match ← allParts? J ["var", "target", "body"] form with
              | [var, target, body] =>
                return .loop mode (← var? J var) (← ofSource? J inner target)
                  (← ofSource? J inner body)
              | _ => none
            | none, none => none

/-- **The expression that a text writes.** -/
def ofText? (J : Json.Codec) (text : String) : Option Expr := do
  ofSource? J J.room (← J.form? (Utf8.bytes text))

end Expr

end Sift
