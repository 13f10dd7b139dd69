import Sift.Json.Codec
import Sift.Proofs.Json.Spelling

/-!
# What is relied on of reading and writing JSON

Nothing is said of the texts that a codec writes, or of the forms that it gives them, but what
follows from two things. A value is written as one of its spellings. And its text has a form that
reads as the value part by part (`Codec.Reads`), from which the value is read as a whole where there
is room for its containers (`Json.depth`). The second is relied on for values that have no fractions
in them and no name twice (`Json.Exact`).
-/

namespace Sift

/-! ## 1. Exact values -/

/-- The number is a word of 64 bits, and a signed one only below zero. -/
def JsonNumber.Exact : JsonNumber → Prop
  | .natural _ => True
  | .negative n => n.toInt < 0
  | .real _ => False

namespace Json

mutual

/-- **A value without fractions**, in which no object has a name twice. -/
def Exact : Json → Prop
  | .null | .bool _ | .string _ => True
  | .number n => n.Exact
  | .array elements => AllExact elements
  | .object members => (members.map (·.1)).Nodup ∧ MembersExact members

/-- The same of the elements of an array. -/
def AllExact : List Json → Prop
  | [] => True
  | v :: rest => v.Exact ∧ AllExact rest

/-- The same of the members of an object. -/
def MembersExact : List (String × Json) → Prop
  | [] => True
  | (_, v) :: rest => v.Exact ∧ MembersExact rest

end

mutual

/-- How deep containers stand inside one another. -/
def depth : Json → Nat
  | .array elements => depthOfAll elements + 1
  | .object members => depthOfMembers members + 1
  | _ => 0

/-- The same in the elements of an array. -/
def depthOfAll : List Json → Nat
  | [] => 0
  | v :: rest => max v.depth (depthOfAll rest)

/-- The same in the members of an object. -/
def depthOfMembers : List (String × Json) → Nat
  | [] => 0
  | (_, v) :: rest => max v.depth (depthOfMembers rest)

end

/-! ## 2. Forms of values -/

namespace Codec

variable (J : Codec)

mutual

/-- **The form reads as the value**, part by part: numbers, strings and names are what the codec
    takes them for, and members come in their order. -/
def Reads : Source → Json → Prop
  | .null, .null => True
  | .bool b, .bool c => b = c
  | .number text, .number n => J.number? text = some n
  | .string body, .string s => J.string? body = some s
  | .array forms, .array elements => ReadsAll forms elements
  | .object forms, .object members => ReadsMembers forms members
  | _, _ => False

/-- The same of the elements of an array. -/
def ReadsAll : List Source → List Json → Prop
  | [], [] => True
  | form :: forms, v :: rest => Reads form v ∧ ReadsAll forms rest
  | _, _ => False

/-- The same of the members of an object. -/
def ReadsMembers : List (Bytes × Source) → List (String × Json) → Prop
  | [], [] => True
  | (body, form) :: forms, (name, v) :: rest =>
    J.string? body = some name ∧ Reads form v ∧ ReadsMembers forms rest
  | _, _ => False

end

/-! ## 3. Laws -/

/-- **What is relied on of a codec.** What can be spelled is written as one of its spellings. The
    text of an exact value has a form that reads as the value; a form that reads as one is read so
    where there is room for it; and there is room for as many containers as texts may have. -/
structure Lawful : Prop where
  spelled : ∀ {v : Json} {text : Bytes}, v.Spells text → v.Spells (Utf8.encode (J.text v))
  formed : ∀ {v : Json}, v.Exact →
    ∃ form, J.form? (Utf8.encode (J.text v)) = some form ∧ J.Reads form v
  valued : ∀ {v : Json} {form : Source} {room : Nat}, v.Exact → J.Reads form v → v.depth ≤ room →
    J.value? room form = some v
  roomy : mostContainers ≤ J.room

end Codec

end Json

end Sift
