import Sift.Proofs.Document.Layout
import Sift.Proofs.Value.Scalars

/-!
# Documents in order

`Doc.order` is the order of documents as trees: arrays element by element, objects member by member
with the key before the value, a shorter one before a longer one that begins like it, and scalars
before arrays before objects. `transits_order`: where all scalars and keys are orderly, it goes
together as a preorder does.
-/

namespace Sift.Doc

/-! ## 1. The order -/

/-- The place of a kind of tree among the kinds. -/
def sort : Doc → Nat
  | .scalar _ => 0
  | .array .. => 1
  | .object .. => 2

mutual

/-- **The order of two documents.** -/
def order (D : Decimals) : Doc → Doc → Ordering
  | .scalar s, .scalar t => Value.compareScalars D (.ofToken s) (.ofToken t)
  | .array _ xs _, .array _ ys _ => orderItems D xs ys
  | .object _ xs _, .object _ ys _ => orderMembers D xs ys
  | x, y => compare x.sort y.sort

/-- Elements, one after the other. -/
def orderItems (D : Decimals) : List Doc → List Doc → Ordering
  | [], [] => .eq
  | [], _ :: _ => .lt
  | _ :: _, [] => .gt
  | x :: xs, y :: ys => (x.order D y).then (orderItems D xs ys)

/-- Members, one after the other. -/
def orderMembers (D : Decimals) : List (Token × Doc) → List (Token × Doc) → Ordering
  | [], [] => .eq
  | [], _ :: _ => .lt
  | _ :: _, [] => .gt
  | (key, x) :: xs, (key', y) :: ys =>
    ((Value.compareScalars D (.ofToken key) (.ofToken key')).then (x.order D y)).then
      (orderMembers D xs ys)

end

mutual

/-- Something holds of all scalars and keys of a document. -/
def Every (p : Token → Prop) : Doc → Prop
  | .scalar t => p t
  | .array _ items _ => EveryItem p items
  | .object _ members _ => EveryMember p members

/-- The same of several values. -/
def EveryItem (p : Token → Prop) : List Doc → Prop
  | [] => True
  | d :: rest => d.Every p ∧ EveryItem p rest

/-- The same of several members. -/
def EveryMember (p : Token → Prop) : List (Token × Doc) → Prop
  | [] => True
  | (key, d) :: rest => p key ∧ d.Every p ∧ EveryMember p rest

end

variable {D : Decimals}

/-- Kinds of trees decide first. -/
theorem order_eq (x y : Doc) : x.order D y = (compare x.sort y.sort).then (x.order D y) := by
  cases x <;> cases y <;> rfl

/-! ## 2. Three documents -/

/-- Trees of which not all three are of one kind. -/
theorem transits_of_sort {x y z : Doc} (h : ¬(x.sort = y.sort ∧ y.sort = z.sort)) :
    Transits (x.order D y) (y.order D z) (x.order D z) := by
  rw [order_eq x y, order_eq y z, order_eq x z]
  exact (Transits.of_cmp compare x.sort y.sort z.sort).andThen fun hxy hyz =>
    absurd ⟨Std.LawfulEqOrd.eq_of_compare hxy, Std.LawfulEqOrd.eq_of_compare hyz⟩ h

/-- Lists of which one has come to its end, where the shorter one comes first. -/
theorem transits_ends {α : Type} {f : List α → List α → Ordering} (hnil : f [] [] = .eq)
    (hlt : ∀ y ys, f [] (y :: ys) = .lt) (hgt : ∀ x xs, f (x :: xs) [] = .gt) {xs ys zs : List α}
    (h : xs = [] ∨ ys = [] ∨ zs = []) : Transits (f xs ys) (f ys zs) (f xs zs) := by
  have first (o : Ordering) : Transits .lt o .lt :=
    ⟨Ordering.noConfusion, fun _ => rfl, fun _ => rfl⟩
  have last (o : Ordering) : Transits o .gt .gt :=
    ⟨fun _ => rfl, Ordering.noConfusion, Eq.symm⟩
  cases xs with
  | nil => cases ys with
    | nil =>
      rw [hnil]
      exact ⟨fun _ => rfl, fun h => h, Eq.symm⟩
    | cons y ys => cases zs with
      | nil =>
        rw [hlt, hgt, hnil]
        exact ⟨Ordering.noConfusion, Ordering.noConfusion, Ordering.noConfusion⟩
      | cons z zs =>
        rw [hlt, hlt]
        exact first _
  | cons x xs => cases zs with
    | nil => cases ys with
      | nil =>
        rw [hgt, hnil]
        exact ⟨Ordering.noConfusion, fun _ => rfl, fun _ => rfl⟩
      | cons y ys =>
        rw [hgt, hgt]
        exact last _
    | cons z zs =>
      obtain rfl := (h.resolve_left (List.cons_ne_nil _ _)).resolve_right (List.cons_ne_nil _ _)
      rw [hgt, hlt]
      exact ⟨Ordering.noConfusion, Ordering.noConfusion, Ordering.noConfusion⟩

theorem transits_ends_items {xs ys zs : List Doc} (h : xs = [] ∨ ys = [] ∨ zs = []) :
    Transits (orderItems D xs ys) (orderItems D ys zs) (orderItems D xs zs) :=
  transits_ends rfl (fun _ _ => rfl) (fun _ _ => rfl) h

theorem transits_ends_members {xs ys zs : List (Token × Doc)} (h : xs = [] ∨ ys = [] ∨ zs = []) :
    Transits (orderMembers D xs ys) (orderMembers D ys zs) (orderMembers D xs zs) :=
  transits_ends rfl (fun _ _ => rfl) (fun _ _ => rfl) h

/-- A token that fits into the order. -/
def Orderly (t : Token) : Prop := (Value.ofToken t).Orderly

mutual

/-- **Three documents go together**, if their scalars and keys are orderly. -/
theorem transits_order (hD : D.Lawful) : ∀ {x y z : Doc}, x.Every Orderly → y.Every Orderly →
    z.Every Orderly → Transits (x.order D y) (y.order D z) (x.order D z)
  | .scalar s, y, z, hx, hy, hz => by
    cases y with
    | scalar t => cases z with
      | scalar u => exact Value.transits_scalars hD hx hy hz
      | _ => exact transits_of_sort (by simp [sort])
    | _ => exact transits_of_sort (by simp [sort])
  | .array _ xs _, y, z, hx, hy, hz => by
    cases y with
    | array _ ys _ => cases z with
      | array _ zs _ => exact transits_items hD hx hy hz
      | _ => exact transits_of_sort (by simp [sort])
    | _ => exact transits_of_sort (by simp [sort])
  | .object _ xs _, y, z, hx, hy, hz => by
    cases y with
    | object _ ys _ => cases z with
      | object _ zs _ => exact transits_members hD hx hy hz
      | _ => exact transits_of_sort (by simp [sort])
    | _ => exact transits_of_sort (by simp [sort])

theorem transits_items (hD : D.Lawful) : ∀ {xs ys zs : List Doc}, EveryItem Orderly xs →
    EveryItem Orderly ys → EveryItem Orderly zs →
      Transits (orderItems D xs ys) (orderItems D ys zs) (orderItems D xs zs)
  | [], ys, zs, _, _, _ => transits_ends_items (.inl rfl)
  | x :: xs, ys, zs, hx, hy, hz => by
    cases ys with
    | nil => exact transits_ends_items (.inr (.inl rfl))
    | cons y ys => cases zs with
      | nil => exact transits_ends_items (.inr (.inr rfl))
      | cons z zs =>
        exact (transits_order hD hx.1 hy.1 hz.1).andThen fun _ _ => transits_items hD hx.2 hy.2 hz.2

theorem transits_members (hD : D.Lawful) : ∀ {xs ys zs : List (Token × Doc)},
    EveryMember Orderly xs → EveryMember Orderly ys → EveryMember Orderly zs →
      Transits (orderMembers D xs ys) (orderMembers D ys zs) (orderMembers D xs zs)
  | [], ys, zs, _, _, _ => transits_ends_members (.inl rfl)
  | (key, x) :: xs, ys, zs, hx, hy, hz => by
    cases ys with
    | nil => exact transits_ends_members (.inr (.inl rfl))
    | cons y ys => cases zs with
      | nil => exact transits_ends_members (.inr (.inr rfl))
      | cons z zs =>
        exact ((Value.transits_scalars hD hx.1 hy.1 hz.1).andThen fun _ _ =>
          transits_order hD hx.2.1 hy.2.1 hz.2.1).andThen fun _ _ =>
            transits_members hD hx.2.2 hy.2.2 hz.2.2

end

end Sift.Doc
