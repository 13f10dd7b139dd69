import Sift.Proofs.Document.Tree
import Sift.Plan.Compile

/-!
# What expressions mean

`Expr.holds` is the meaning of an expression by itself, with nothing of plans and walks: the
connectives are those of truth values, a loop asks its body of every element, and a test is decided
by the values of its fields. Which value a field has is told by a function, and a loop changes
that function for its variable alone, so variables are scoped by the text.

`Expr.free` lists the fields that an expression reads of variables bound outside of it, and
`Expr.Selfless` says that no loop in it reads the very field that the loop is over.
-/

namespace Sift

/-! ## 1. Loops over elements -/

/-- What a loop comes to over the elements of an array. Over what is no array it is false. -/
def LoopMode.over (mode : LoopMode) (items? : Option (List Doc)) (satisfied : Doc → Bool) : Bool :=
  match items? with
  | none => false
  | some items =>
    match mode with
    | .any => items.any satisfied
    | .every => items.all satisfied
    | .anyEvery => items.all satisfied && !items.isEmpty

theorem LoopMode.over_congr {mode : LoopMode} {items? : Option (List Doc)} {p q : Doc → Bool}
    (h : ∀ items, items? = some items → ∀ x ∈ items, p x = q x) :
    mode.over items? p = mode.over items? q := by
  cases items? with
  | none => rfl
  | some items =>
    have hm : items.map p = items.map q := List.map_congr_left (h items rfl)
    have any : items.any p = items.any q := by simpa [List.any_map] using congrArg (·.any id) hm
    have all : items.all p = items.all q := by simpa [List.all_map] using congrArg (·.all id) hm
    cases mode with
    | any => exact any
    | every => exact all
    | anyEvery => exact congrArg (· && _) all

namespace Expr

/-! ## 2. Operands and tests -/

mutual

/-- The value of an operand, where fields have the values `V`. -/
def valueBy (kit : Toolkit) (V : Field → Value) : Expr → Value
  | .truth b => .bool b
  | .value v => .ofJson kit.json v
  | .field f => V f
  | .func f params =>
    let values := valuesBy kit V params
    f.apply (values[0]?.getD .missing) (values[1]?.getD .missing)
  | _ => .invalid

/-- The values of several operands. -/
def valuesBy (kit : Toolkit) (V : Field → Value) : List Expr → List Value
  | [] => []
  | e :: rest => e.valueBy kit V :: valuesBy kit V rest

end

/-- The pattern that the right side of a match is. -/
def pattern? (kit : Toolkit) : Expr → Option Pattern
  | .value (.string s) => kit.patterns.ofString? s
  | _ => none

/-- The answer of a test, where fields have the values `V`. An operand asks whether it is true. -/
def testBy (kit : Toolkit) (V : Field → Value) : Expr → Bool
  | .present e => !(e.valueBy kit V).isMissing
  | .absent e => (e.valueBy kit V).isMissing
  | .relation r lhs rhs => r.relates kit.decimals (lhs.valueBy kit V) (rhs.valueBy kit V)
  | .like lhs rhs =>
    match rhs.pattern? kit with
    | some p => p.matchesValue (lhs.valueBy kit V)
    | none => false
  | e => (e.valueBy kit V).isTrue

/-- Whether an expression is a test of operands. -/
def isTest : Expr → Bool
  | .and _ | .or _ | .not _ | .loop .. => false
  | _ => true

/-! ## 3. Expressions -/

/-- What fields are, once a variable is bound to an element. -/
def bindTo (R : Field → Option Doc) (var : Variable) (x : Doc) : Field → Option Doc :=
  fun f => if f.root = var then x.follow f.path else R f

mutual

/-- **The meaning of an expression**, where `R` tells which value a field is, if there is one. -/
def holds (kit : Toolkit) (data : Bytes) (R : Field → Option Doc) : Expr → Bool
  | .and es => holdAll kit data R es
  | .or es => holdAny kit data R es
  | .not e => !e.holds kit data R
  | .loop mode var target body =>
    match target with
    | .field f => mode.over ((R f).bind Doc.items?) fun x => body.holds kit data (bindTo R var x)
    | _ => false
  | e => e.testBy kit fun f => Doc.valueOf data (R f)

/-- All of several expressions hold. -/
def holdAll (kit : Toolkit) (data : Bytes) (R : Field → Option Doc) : List Expr → Bool
  | [] => true
  | e :: rest => e.holds kit data R && holdAll kit data R rest

/-- Some of several expressions holds. -/
def holdAny (kit : Toolkit) (data : Bytes) (R : Field → Option Doc) : List Expr → Bool
  | [] => false
  | e :: rest => e.holds kit data R || holdAny kit data R rest

end

theorem holds_of_isTest {kit : Toolkit} {data : Bytes} {R : Field → Option Doc} {e : Expr}
    (h : e.isTest = true) : e.holds kit data R = e.testBy kit fun f => Doc.valueOf data (R f) := by
  cases e with
  | and _ | or _ | not _ | loop _ _ _ _ => cases h
  | _ => rfl

/-- What fields are where only the document is bound. -/
def fieldsOf (d : Doc) : Field → Option Doc :=
  fun f => if f.root = Variable.root then d.follow f.path else none

/-! ## 4. Free fields -/

mutual

/-- The fields of variables that are bound outside of the expression. -/
def free : Expr → List Field
  | .truth _ | .value _ => []
  | .field f => [f]
  | .func _ es | .and es | .or es => freeOfAll es
  | .not e | .present e | .absent e => e.free
  | .loop _ var target body => target.free ++ body.free.filter (·.root ≠ var)
  | .relation _ lhs rhs | .like lhs rhs => lhs.free ++ rhs.free

/-- The free fields of several expressions. -/
def freeOfAll : List Expr → List Field
  | [] => []
  | e :: rest => e.free ++ freeOfAll rest

end

mutual

theorem free_subset_fields : ∀ (e : Expr) (f : Field), f ∈ e.free → f ∈ e.fields
  | .truth _, _, h | .value _, _, h => by simp [free] at h
  | .field _, _, h => by simpa [free, fields] using h
  | .func _ es, f, h | .and es, f, h | .or es, f, h => by
    rw [free] at h
    rw [fields]
    exact freeOfAll_subset_fields es f h
  | .not e, f, h | .present e, f, h | .absent e, f, h => by
    rw [free] at h
    rw [fields]
    exact free_subset_fields e f h
  | .loop _ _ target body, f, h => by
    rw [free, List.mem_append] at h
    rw [fields, List.mem_append]
    rcases h with h | h
    · exact .inl (free_subset_fields target f h)
    · exact .inr (free_subset_fields body f (List.mem_filter.mp h).1)
  | .relation _ a b, f, h | .like a b, f, h => by
    rw [free, List.mem_append] at h
    rw [fields, List.mem_append]
    exact h.imp (free_subset_fields a f) (free_subset_fields b f)

theorem freeOfAll_subset_fields : ∀ (es : List Expr) (f : Field),
    f ∈ freeOfAll es → f ∈ fieldsOfAll es
  | [], _, h => by simp [freeOfAll] at h
  | e :: rest, f, h => by
    rw [freeOfAll, List.mem_append] at h
    rw [fieldsOfAll, List.mem_append]
    exact h.imp (free_subset_fields e f) (freeOfAll_subset_fields rest f)

end

mutual

theorem valueBy_congr {kit : Toolkit} {V V' : Field → Value} :
    ∀ {e : Expr}, (∀ f ∈ e.free, V f = V' f) → e.valueBy kit V = e.valueBy kit V'
  | .field f, h => h f (by simp [free])
  | .func _ params, h => by
    rw [valueBy, valueBy, valuesBy_congr h]
  | .truth _, _ | .value _, _ | .not _, _ | .and _, _ | .or _, _ | .loop .., _ | .present _, _
  | .absent _, _ | .relation .., _ | .like .., _ => rfl

theorem valuesBy_congr {kit : Toolkit} {V V' : Field → Value} : ∀ {es : List Expr},
    (∀ f ∈ freeOfAll es, V f = V' f) → valuesBy kit V es = valuesBy kit V' es
  | [], _ => rfl
  | e :: rest, h => by
    rw [valuesBy, valuesBy, valueBy_congr fun f hf => h f (List.mem_append_left _ hf),
      valuesBy_congr fun f hf => h f (List.mem_append_right _ hf)]

end

/-- The answer of a test depends on the values of its free fields only. -/
theorem testBy_congr {kit : Toolkit} {V V' : Field → Value} {e : Expr}
    (h : ∀ f ∈ e.free, V f = V' f) : e.testBy kit V = e.testBy kit V' := by
  cases e with
  | present e => exact congrArg (fun v => !v.isMissing) (valueBy_congr (e := e) h)
  | absent e => exact congrArg Value.isMissing (valueBy_congr (e := e) h)
  | relation r a b =>
    rw [testBy, testBy, valueBy_congr fun f hf => h f (List.mem_append_left _ hf),
      valueBy_congr fun f hf => h f (List.mem_append_right _ hf)]
  | like a b => rw [testBy, testBy, valueBy_congr fun f hf => h f (List.mem_append_left _ hf)]
  | _ => exact congrArg Value.isTrue (@valueBy_congr kit _ _ _ h)

mutual

/-- **No loop reads the field that it is over** in its body. -/
def Selfless : Expr → Prop
  | .and es | .or es => AllSelfless es
  | .not e => e.Selfless
  | .loop _ var target body =>
    (∀ f, target = .field f → f.root ≠ var → f ∉ body.free) ∧ body.Selfless
  | _ => True

/-- The same of several expressions. -/
def AllSelfless : List Expr → Prop
  | [] => True
  | e :: rest => e.Selfless ∧ AllSelfless rest

end

end Expr

end Sift
