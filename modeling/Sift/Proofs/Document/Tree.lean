import Sift.Walk.Parts

/-!
# Documents as trees

A `Doc` is a value of a document, with the tokens that it is made of. A path leads from one to
another in two ways:

* `Doc.follow` takes, at each step, the first member of the name;
* `Doc.reach` takes, of all that the names lead to, the first that there is.

They differ only where an object has two members of one name (`reach_eq_follow`).
-/

namespace Sift

/-- A value of a document: its tokens, and where a container stops. -/
inductive Doc
  | scalar (token : Token)
  | array (opening : Token) (items : List Doc) (stop : Nat)
  | object (opening : Token) (members : List (Token × Doc)) (stop : Nat)

namespace Doc

/-! ## 1. Parts -/

/-- The first token. -/
def opening : Doc → Token
  | .scalar token | .array token _ _ | .object token _ _ => token

/-- The offset one past the last byte. -/
def stop : Doc → Nat
  | .scalar token => token.stop
  | .array _ _ stop | .object _ _ stop => stop

/-- Where the value lies. -/
def span (d : Doc) : Span := .between d.opening.offset d.stop

/-- What an operand makes of it. -/
def value (data : Bytes) : Doc → Value
  | .scalar token => .ofToken token
  | .array opening _ stop => .array ((Span.between opening.offset stop).text data)
  | .object opening _ stop => .object ((Span.between opening.offset stop).text data)

/-- What an operand makes of a value that may not be there. -/
def valueOf (data : Bytes) : Option Doc → Value
  | some d => d.value data
  | none => .missing

/-- The elements of an array. -/
def items? : Doc → Option (List Doc)
  | .array _ items _ => some items
  | _ => none

/-! ## 2. Paths -/

/-- The first of the members of a name. -/
def firstIn (name : String) : List (Token × Doc) → Option Doc
  | [] => none
  | (key, d) :: rest => if Walk.nameOf? key = some name then some d else firstIn name rest

/-- The first member of a name. Only objects have members. -/
def first (name : String) : Doc → Option Doc
  | .object _ members _ => firstIn name members
  | _ => none

/-- **Where a path leads** if each step takes the first member of its name. -/
def follow : Path → Doc → Option Doc
  | [], d => some d
  | name :: path, d => (d.first name).bind (follow path)

/-- The first that `f` finds in the members of a name. -/
def findIn (name : String) (f : Doc → Option Doc) : List (Token × Doc) → Option Doc
  | [] => none
  | (key, d) :: rest =>
    if Walk.nameOf? key = some name then (f d).or (findIn name f rest) else findIn name f rest

theorem firstIn_append {name : String} {xs ys : List (Token × Doc)} :
    firstIn name (xs ++ ys) = (firstIn name xs).or (firstIn name ys) := by
  induction xs with
  | nil => rfl
  | cons m rest ih =>
    rw [List.cons_append, firstIn, firstIn]
    split
    · rfl
    · exact ih

theorem findIn_append {name : String} {f : Doc → Option Doc} {xs ys : List (Token × Doc)} :
    findIn name f (xs ++ ys) = (findIn name f xs).or (findIn name f ys) := by
  induction xs with
  | nil => rfl
  | cons m rest ih =>
    rw [List.cons_append, findIn, findIn, ih]
    split
    · rw [Option.or_assoc]
    · rfl

/-- **Where a path leads first**, if a step may take any member of its name. -/
def reach : Path → Doc → Option Doc
  | [], d => some d
  | name :: path, .object _ members _ => findIn name (reach path) members
  | _ :: _, _ => none

/-- Where the path `p` leads if the steps of `q`, with which it begins, take first members, and
    the other steps any. -/
def late (q p : Path) (d : Doc) : Option Doc := (d.follow q).bind (reach (p.drop q.length))

theorem late_self (p : Path) (d : Doc) : d.late p p = d.follow p := by
  rw [late, List.drop_length]
  cases d.follow p <;> rfl

theorem follow_append (p q : Path) (d : Doc) :
    d.follow (p ++ q) = (d.follow p).bind (follow q) := by
  induction p generalizing d with
  | nil => rfl
  | cons name p ih =>
    rw [List.cons_append, follow, follow, Option.bind_assoc]
    exact congrArg _ (funext ih)

/-! ## 3. Documents without repeated names -/

mutual

/-- No object in the value has two members of one name. -/
def Unique : Doc → Prop
  | .scalar _ => True
  | .array _ items _ => UniqueAll items
  | .object _ members _ =>
    members.Pairwise (fun a b => ∀ name, Walk.nameOf? a.1 = some name →
      Walk.nameOf? b.1 ≠ some name) ∧ UniqueMembers members

/-- The same of several values. -/
def UniqueAll : List Doc → Prop
  | [] => True
  | d :: rest => d.Unique ∧ UniqueAll rest

/-- The same of several members. -/
def UniqueMembers : List (Token × Doc) → Prop
  | [] => True
  | (_, d) :: rest => d.Unique ∧ UniqueMembers rest

end

theorem unique_of_items {items : List Doc} (h : UniqueAll items) : ∀ x ∈ items, x.Unique := by
  induction items with
  | nil => simp
  | cons d rest ih =>
    intro x hx
    rcases List.mem_cons.mp hx with rfl | hx
    · exact h.1
    · exact ih h.2 x hx

theorem unique_of_firstIn {name : String} {members : List (Token × Doc)} {d : Doc}
    (h : UniqueMembers members) (hd : firstIn name members = some d) : d.Unique := by
  induction members with
  | nil => cases hd
  | cons m rest ih =>
    rw [firstIn] at hd
    split at hd
    · cases hd
      exact h.1
    · exact ih h.2 hd

theorem unique_of_follow {p : Path} {d x : Doc} (h : d.Unique) (hx : d.follow p = some x) :
    x.Unique := by
  induction p generalizing d with
  | nil =>
    cases hx
    exact h
  | cons name p ih =>
    obtain ⟨m, hm, hx⟩ := Option.bind_eq_some_iff.mp hx
    refine ih ?_ hx
    cases d with
    | object _ members _ => exact unique_of_firstIn h.2 hm
    | _ => cases hm

/-- Of members whose names differ, at most one has a name. -/
theorem findIn_eq {name : String} {f : Doc → Option Doc} {members : List (Token × Doc)}
    (h : members.Pairwise fun a b => ∀ name, Walk.nameOf? a.1 = some name →
      Walk.nameOf? b.1 ≠ some name) :
    findIn name f members = (firstIn name members).bind f := by
  induction members with
  | nil => rfl
  | cons m rest ih =>
    obtain ⟨hm, hrest⟩ := List.pairwise_cons.mp h
    rw [findIn, firstIn]
    split
    · next hn =>
      have none_left : firstIn name rest = none := by
        clear ih h hrest
        induction rest with
        | nil => rfl
        | cons b rest ih =>
          rw [firstIn, if_neg (hm b List.mem_cons_self name hn)]
          exact ih fun b hb => hm b (List.mem_cons_of_mem _ hb)
      rw [ih hrest, none_left, Option.bind_none, Option.or_none, Option.bind_some]
    · exact ih hrest

/-- **Where no name is repeated, there is one way only.** -/
theorem reach_eq_follow {p : Path} {d : Doc} (h : d.Unique) : d.reach p = d.follow p := by
  induction p generalizing d with
  | nil => rfl
  | cons name p ih =>
    cases d with
    | scalar _ => rfl
    | array _ _ _ => rfl
    | object _ members _ =>
      rw [reach, findIn_eq h.1, follow, first]
      cases hm : firstIn name members with
      | none => rfl
      | some m => exact ih (unique_of_firstIn h.2 hm)

theorem late_eq_follow {p q : Path} {d : Doc} (h : d.Unique) (hq : q <+: p) :
    d.late q p = d.follow p := by
  obtain ⟨r, rfl⟩ := hq
  rw [late, List.drop_left, follow_append]
  cases hx : d.follow q with
  | none => rfl
  | some x => exact reach_eq_follow (unique_of_follow h hx)

end Doc

end Sift
