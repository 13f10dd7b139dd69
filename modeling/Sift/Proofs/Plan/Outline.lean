import Sift.Proofs.Meaning.Exact
import Sift.Proofs.Resolution.Truth

/-!
# Outlines of expressions

An `Outline` is what compiling makes of the connectives of an expression: conjunctions and
disjunctions of two, over tests and loops, which are its leaves. Its nodes take buckets in
pre-order, so an outline that begins at bucket `i` tells the bucket of each leaf (`Outline.leaves`).
Whatever the tests and loops come to, the connectives make the same of an expression and of its
outline (`holdsBy_outline`).

`Formula.Laid` says that a formula stands in a resolution tree from a bucket on. There, what is
true of the leaves of an outline determines what is true of the whole (`Outline.truth_holdsBy`), and
it is known once they are (`Outline.rests`).
-/

namespace Sift

open Resolution Plan

/-! ## 1. Outlines -/

/-- **The connectives of an expression**, two at a time. -/
inductive Outline
  | test (e : Expr)
  /-- A loop, and the outline of its body. -/
  | loop (mode : LoopMode) (var : Variable) (target body : Expr) (inside : Outline)
  | not (a : Outline)
  | and (a b : Outline)
  | or (a b : Outline)
  /-- Two independent expressions. -/
  | both (a b : Outline)

namespace Outline

/-- The Boolean structure alone. -/
def formula : Outline → Formula
  | .test _ => .leaf
  | .loop _ _ _ _ inside => .loop inside.formula
  | .not a => .not a.formula
  | .and a b => .and a.formula b.formula
  | .or a b => .or a.formula b.formula
  | .both a b => .both a.formula b.formula

/-- The number of buckets. -/
def size (o : Outline) : Nat := o.formula.size

/-- **The tests and loops**, each with its bucket, where the outline begins at bucket `i`. What is
    inside a loop does not count. -/
def leaves : Outline → (i : Nat) → List (Nat × Outline)
  | .not a, i => a.leaves (i + 1)
  | .and a b, i | .or a b, i | .both a b, i => a.leaves (i + 1) ++ b.leaves (i + 1 + a.size)
  | o, i => [(i, o)]

/-- What a plan makes of an outline. -/
def exact (kit : Toolkit) (data : Bytes) (outer : Field → Option Doc) (cur : Variable) (d : Doc) :
    Outline → Bool
  | .test e => e.exact kit data outer cur d
  | .loop mode var target body _ => (Expr.loop mode var target body).exact kit data outer cur d
  | .not a => !a.exact kit data outer cur d
  | .and a b => a.exact kit data outer cur d && b.exact kit data outer cur d
  | .or a b => a.exact kit data outer cur d || b.exact kit data outer cur d
  | .both _ _ => false

end Outline

mutual

/-- The outline of an expression. -/
def Expr.outline : Expr → Outline
  | .and es => outlineOfChain true es
  | .or es => outlineOfChain false es
  | .not e => .not e.outline
  | .loop mode var target body => .loop mode var target body body.outline
  | e => .test e

/-- The outline of a conjunction or a disjunction of several expressions. -/
def outlineOfChain (conjunction : Bool) : List Expr → Outline
  | [] => .test (.truth conjunction)
  | [e] => e.outline
  | e :: rest =>
    if conjunction then .and e.outline (outlineOfChain conjunction rest)
    else .or e.outline (outlineOfChain conjunction rest)

end

/-- The outline of several independent expressions. -/
def outlineOfAll : List Expr → Outline
  | [] => .test (.truth false)
  | [e] => e.outline
  | e :: rest => .both e.outline (outlineOfAll rest)

/-! ## 2. Connectives -/

mutual

/-- **What the connectives make of an expression** if its tests and loops come to `v`. -/
def Expr.holdsBy (v : Expr → Bool) : Expr → Bool
  | .and es => Expr.allHoldBy v es
  | .or es => Expr.anyHoldsBy v es
  | .not e => !e.holdsBy v
  | e => v e

/-- All of several expressions hold. -/
def Expr.allHoldBy (v : Expr → Bool) : List Expr → Bool
  | [] => true
  | e :: rest => e.holdsBy v && Expr.allHoldBy v rest

/-- Some of several expressions holds. -/
def Expr.anyHoldsBy (v : Expr → Bool) : List Expr → Bool
  | [] => false
  | e :: rest => e.holdsBy v || Expr.anyHoldsBy v rest

end

/-- What the connectives make of an outline. -/
def Outline.holdsBy (v : Expr → Bool) : Outline → Bool
  | .test e => v e
  | .loop mode var target body _ => v (.loop mode var target body)
  | .not a => !a.holdsBy v
  | .and a b => a.holdsBy v && b.holdsBy v
  | .or a b => a.holdsBy v || b.holdsBy v
  | .both _ _ => false

mutual

/-- **A chain of two at a time comes to what the list does**, of any length. -/
theorem holdsBy_outline {v : Expr → Bool} (hv : ∀ b, v (.truth b) = b) :
    ∀ e : Expr, e.outline.holdsBy v = e.holdsBy v
  | .and es => holdsBy_outlineOfAnd hv es
  | .or es => holdsBy_outlineOfOr hv es
  | .not e => congrArg (!·) (holdsBy_outline hv e)
  | .loop _ _ _ _ | .truth _ | .value _ | .field _ | .func _ _ | .present _ | .absent _
  | .relation .. | .like .. => rfl

theorem holdsBy_outlineOfAnd {v : Expr → Bool} (hv : ∀ b, v (.truth b) = b) : ∀ es : List Expr,
    (outlineOfChain true es).holdsBy v = Expr.allHoldBy v es
  | [] => hv true
  | [e] => by
    rw [outlineOfChain, holdsBy_outline hv e, Expr.allHoldBy, Expr.allHoldBy, Bool.and_true]
  | e :: e' :: rest => by
    rw [outlineOfChain, if_pos rfl, Outline.holdsBy, holdsBy_outline hv e,
      holdsBy_outlineOfAnd hv (e' :: rest)]
    · rfl
    · exact List.cons_ne_nil _ _

theorem holdsBy_outlineOfOr {v : Expr → Bool} (hv : ∀ b, v (.truth b) = b) : ∀ es : List Expr,
    (outlineOfChain false es).holdsBy v = Expr.anyHoldsBy v es
  | [] => hv false
  | [e] => by
    rw [outlineOfChain, holdsBy_outline hv e, Expr.anyHoldsBy, Expr.anyHoldsBy, Bool.or_false]
  | e :: e' :: rest => by
    rw [outlineOfChain, if_neg Bool.false_ne_true, Outline.holdsBy, holdsBy_outline hv e,
      holdsBy_outlineOfOr hv (e' :: rest)]
    · rfl
    · exact List.cons_ne_nil _ _

end

section Exact

variable {kit : Toolkit} {data : Bytes} {outer : Field → Option Doc} {cur : Variable} {d : Doc}

mutual

theorem Expr.holdsBy_exact : ∀ e : Expr,
    e.holdsBy (fun e => e.exact kit data outer cur d) = e.exact kit data outer cur d
  | .and es => allHoldBy_exact es
  | .or es => anyHoldsBy_exact es
  | .not e => congrArg (!·) (Expr.holdsBy_exact e)
  | .loop _ _ _ _ | .truth _ | .value _ | .field _ | .func _ _ | .present _ | .absent _
  | .relation .. | .like .. => rfl

theorem allHoldBy_exact : ∀ es : List Expr,
    Expr.allHoldBy (fun e => e.exact kit data outer cur d) es =
      Expr.exactAll kit data outer cur d es
  | [] => rfl
  | e :: rest => congrArg₂ (· && ·) (Expr.holdsBy_exact e) (allHoldBy_exact rest)

theorem anyHoldsBy_exact : ∀ es : List Expr,
    Expr.anyHoldsBy (fun e => e.exact kit data outer cur d) es =
      Expr.exactAny kit data outer cur d es
  | [] => rfl
  | e :: rest => congrArg₂ (· || ·) (Expr.holdsBy_exact e) (anyHoldsBy_exact rest)

end

theorem Outline.holdsBy_exact : ∀ o : Outline,
    o.holdsBy (fun e => e.exact kit data outer cur d) = o.exact kit data outer cur d
  | .test _ | .loop .. | .both _ _ => rfl
  | .not a => congrArg (!·) (Outline.holdsBy_exact a)
  | .and a b => congrArg₂ (· && ·) (Outline.holdsBy_exact a) (Outline.holdsBy_exact b)
  | .or a b => congrArg₂ (· || ·) (Outline.holdsBy_exact a) (Outline.holdsBy_exact b)

/-- An outline is made the same of as its expression. -/
theorem exact_outline (e : Expr) :
    e.outline.exact kit data outer cur d = e.exact kit data outer cur d := by
  have hv (b : Bool) : (Expr.truth b).exact kit data outer cur d = b := by cases b <;> rfl
  rw [← Outline.holdsBy_exact, holdsBy_outline hv, Expr.holdsBy_exact]

end Exact

/-! ## 3. Formulas in trees -/

namespace Plan.Formula

variable {t : Tree}

/-- **The formula stands in the tree** from bucket `i` on. -/
def Laid (t : Tree) : Formula → (i : Nat) → Prop
  | .leaf, i => i < t.size ∧ (t.node i).kind = .leaf
  | .not a, i => i < t.size ∧ (t.node i).kind = .not ∧ (t.node i).left = i + 1 ∧ a.Laid t (i + 1)
  | .loop a, i =>
    i < t.size ∧ (t.node i).kind = .barrier ∧ (t.node i).left = i + 1 ∧ (t.node i).right = 0 ∧
      a.Laid t (i + 1)
  | .and a b, i =>
    i < t.size ∧ (t.node i).kind = .and ∧ (t.node i).left = i + 1 ∧
      (t.node i).right = i + 1 + a.size ∧ a.Laid t (i + 1) ∧ b.Laid t (i + 1 + a.size)
  | .or a b, i =>
    i < t.size ∧ (t.node i).kind = .or ∧ (t.node i).left = i + 1 ∧
      (t.node i).right = i + 1 + a.size ∧ a.Laid t (i + 1) ∧ b.Laid t (i + 1 + a.size)
  | .both a b, i =>
    i < t.size ∧ (t.node i).kind = .barrier ∧ (t.node i).left = i + 1 ∧
      (t.node i).right = i + 1 + a.size ∧ a.Laid t (i + 1) ∧ b.Laid t (i + 1 + a.size)

theorem size_pos (f : Formula) : 0 < f.size := by
  cases f with
  | leaf => exact Nat.one_pos
  | _ => exact Nat.succ_pos _

theorem length_layout : ∀ (f : Formula) (parent i : Nat), (f.layout parent i).length = f.size
  | .leaf, _, _ => rfl
  | .not a, _, i | .loop a, _, i => by
    rw [layout, List.length_cons, length_layout a, size]
  | .and a b, _, i | .or a b, _, i | .both a b, _, i => by
    rw [layout, List.length_cons, List.length_append, length_layout a, length_layout b, size]

/-- The nodes of a tree from `i` on begin with `nodes`. -/
def Has (t : Tree) (i : Nat) (nodes : List TreeNode) : Prop :=
  ∀ k, k < nodes.length → t.nodes[i + k]? = nodes[k]?

theorem Has.head {i : Nat} {node : TreeNode} {nodes : List TreeNode} (h : Has t i (node :: nodes)) :
    i < t.size ∧ t.node i = node := by
  have h0 := h 0 (Nat.succ_pos _)
  rw [List.getElem?_cons_zero, Nat.add_zero] at h0
  exact ⟨(Array.getElem?_eq_some_iff.mp h0).1, by rw [Resolution.Tree.node, h0]; rfl⟩

theorem Has.tail {i : Nat} {node : TreeNode} {nodes : List TreeNode} (h : Has t i (node :: nodes)) :
    Has t (i + 1) nodes := fun k hk => by
  have := h (k + 1) (Nat.succ_lt_succ hk)
  rwa [List.getElem?_cons_succ, ← Nat.add_assoc, Nat.add_right_comm] at this

theorem Has.left {i : Nat} {l r : List TreeNode} (h : Has t i (l ++ r)) : Has t i l :=
  fun k hk => by
    rw [h k (by rw [List.length_append]; omega), List.getElem?_append_left hk]

theorem Has.right {i : Nat} {l r : List TreeNode} (h : Has t i (l ++ r)) :
    Has t (i + l.length) r := fun k hk => by
  rw [Nat.add_assoc, h (l.length + k) (by rw [List.length_append]; omega),
    List.getElem?_append_right (by omega), Nat.add_sub_cancel_left]

/-- **A tree that has the nodes of a formula has the formula.** -/
theorem laid_of_has : ∀ (f : Formula) {parent i : Nat}, Has t i (f.layout parent i) → f.Laid t i
  | .leaf, _, _, h => by
    obtain ⟨hlt, hn⟩ := h.head
    exact ⟨hlt, by rw [hn]⟩
  | .not a, _, _, h => by
    obtain ⟨hlt, hn⟩ := h.head
    exact ⟨hlt, by rw [hn], by rw [hn], laid_of_has a h.tail⟩
  | .loop a, _, _, h => by
    obtain ⟨hlt, hn⟩ := h.head
    exact ⟨hlt, by rw [hn], by rw [hn], by rw [hn], laid_of_has a h.tail⟩
  | .and a b, _, _, h | .or a b, _, _, h | .both a b, _, _, h => by
    obtain ⟨hlt, hn⟩ := h.head
    have hb := h.tail.right
    rw [length_layout] at hb
    exact ⟨hlt, by rw [hn], by rw [hn], by rw [hn], laid_of_has a h.tail.left, laid_of_has b hb⟩

theorem Laid.lt : ∀ {f : Formula} {i : Nat}, f.Laid t i → i < t.size
  | .leaf, _, h | .not _, _, h | .loop _, _, h | .and _ _, _, h | .or _ _, _, h
  | .both _ _, _, h => h.1

/-- The part of a formula ends where its buckets do. -/
theorem Laid.stop (hv : t.Valid) : ∀ {f : Formula} {i : Nat}, f.Laid t i → t.stop i = i + f.size
  | .leaf, i, h => by
    cases hv.shape i h.1 with
    | leaf _ _ _ stop => exact stop
    | one kind => rw [h.2] at kind; rcases kind with kind | kind <;> cases kind
    | two kind => rw [h.2] at kind; rcases kind with kind | kind | kind <;> cases kind
  | .not a, i, h => by
    obtain ⟨hlt, hk, -, ha⟩ := h
    cases hv.shape i hlt with
    | leaf kind => rw [hk] at kind; cases kind
    | one _ _ _ _ stop => rw [stop, ha.stop hv, size]; omega
    | two kind => rw [hk] at kind; rcases kind with kind | kind | kind <;> cases kind
  | .loop a, i, h => by
    obtain ⟨hlt, hk, -, hr, ha⟩ := h
    cases hv.shape i hlt with
    | leaf kind => rw [hk] at kind; cases kind
    | one _ _ _ _ stop => rw [stop, ha.stop hv, size]; omega
    | two _ _ right =>
      have := hv.lt_stop (i + 1)
      omega
  | .and a b, i, h | .or a b, i, h | .both a b, i, h => by
    obtain ⟨hlt, hk, -, hr, ha, hb⟩ := h
    cases hv.shape i hlt with
    | leaf kind => rw [hk] at kind; cases kind
    | one _ _ right => omega
    | two _ _ _ _ _ stop => rw [stop, ha.stop hv, hb.stop hv, size]; omega

/-- What lies below the first bucket of a formula. -/
theorem Laid.isBelow_iff (hv : t.Valid) {f : Formula} {i j : Nat} (h : f.Laid t i) :
    t.isBelow i j = true ↔ i < j ∧ j < i + f.size := by
  rw [Tree.isBelow_iff, h.stop hv]

/-- What begins in a formula ends in it. -/
theorem Laid.stop_le (hv : t.Valid) {f : Formula} {i j : Nat} (h : f.Laid t i) (hij : i ≤ j)
    (hj : j < i + f.size) : t.stop j ≤ i + f.size := by
  rw [← h.stop hv] at hj ⊢
  rcases Nat.eq_or_lt_of_le hij with rfl | hlt
  · exact Nat.le_refl _
  · exact (hv.below_nested i h.lt j (Tree.isBelow_iff.mpr ⟨hlt, hj⟩)).1

end Plan.Formula

/-! ## 4. Leaves -/

namespace Outline

variable {t : Tree} {i : Nat} {l : Nat × Outline}

theorem size_pos (o : Outline) : 0 < o.size := o.formula.size_pos

/-- A leaf is a test or a loop. -/
def IsLeaf : Outline → Prop
  | .test _ | .loop .. => True
  | _ => False

theorem isLeaf_of_mem : ∀ {o : Outline} {i : Nat}, l ∈ o.leaves i → l.2.IsLeaf
  | .test _, _, h | .loop .., _, h => by
    rw [List.mem_singleton.mp h]
    trivial
  | .not a, _, h => isLeaf_of_mem (o := a) h
  | .and a b, _, h | .or a b, _, h | .both a b, _, h => by
    rcases List.mem_append.mp h with h | h
    · exact isLeaf_of_mem h
    · exact isLeaf_of_mem h

/-- The buckets of a leaf are among those of the outline. -/
theorem range_of_mem : ∀ {o : Outline} {i : Nat}, l ∈ o.leaves i →
    i ≤ l.1 ∧ l.1 + l.2.size ≤ i + o.size
  | .test _, _, h | .loop .., _, h => by
    rw [List.mem_singleton.mp h]
    exact ⟨Nat.le_refl _, Nat.le_refl _⟩
  | .not a, i, h => by
    obtain ⟨h₁, h₂⟩ := range_of_mem (o := a) h
    simp only [size, formula, Formula.size] at h₂ ⊢
    omega
  | .and a b, _, h | .or a b, _, h | .both a b, _, h => by
    simp only [size, formula, Formula.size]
    rcases List.mem_append.mp h with h | h
    · obtain ⟨h₁, h₂⟩ := range_of_mem h
      simp only [size] at h₂
      omega
    · obtain ⟨h₁, h₂⟩ := range_of_mem h
      simp only [size] at h₁ h₂
      omega

/-- Leaves come one after the other. -/
theorem leaves_pairwise : ∀ (o : Outline) (i : Nat),
    (o.leaves i).Pairwise fun l l' => l.1 + l.2.size ≤ l'.1
  | .test _, _ | .loop .., _ => List.pairwise_singleton _ _
  | .not a, i => leaves_pairwise a (i + 1)
  | .and a b, i | .or a b, i | .both a b, i => by
    refine List.pairwise_append.mpr ⟨leaves_pairwise a _, leaves_pairwise b _, fun l hl l' hl' => ?_⟩
    have := (range_of_mem hl).2
    have := (range_of_mem hl').1
    omega

/-- No two leaves have the same bucket. -/
theorem leaves_nodup (o : Outline) (i : Nat) : ((o.leaves i).map (·.1)).Nodup := by
  refine List.pairwise_map.mpr ((o.leaves_pairwise i).imp fun {l l'} h he => ?_)
  have := l.2.size_pos
  simp only [size] at *
  omega

theorem leaf_laid : ∀ {o : Outline} {i : Nat}, o.formula.Laid t i → l ∈ o.leaves i →
    l.2.formula.Laid t l.1
  | .test _, _, h, hl | .loop .., _, h, hl => by
    rw [List.mem_singleton.mp hl]
    exact h
  | .not a, _, h, hl => leaf_laid (o := a) h.2.2.2 hl
  | .and a b, _, h, hl | .or a b, _, h, hl | .both a b, _, h, hl => by
    rcases List.mem_append.mp hl with hl | hl
    · exact leaf_laid h.2.2.2.2.1 hl
    · exact leaf_laid h.2.2.2.2.2 hl

/-- The node of a leaf takes nothing from others. -/
theorem leaf_kind {o : Outline} (h : o.formula.Laid t i) (hl : l ∈ o.leaves i) :
    (t.node l.1).kind = .leaf ∨ (t.node l.1).kind = .barrier := by
  have hlaid := leaf_laid h hl
  have hleaf := isLeaf_of_mem hl
  cases hl2 : l.2 with
  | test e =>
    rw [hl2] at hlaid
    exact .inl hlaid.2
  | loop _ _ _ _ _ =>
    rw [hl2] at hlaid
    exact .inr hlaid.2.1
  | not _ | and _ _ | or _ _ | both _ _ =>
    rw [hl2] at hleaf
    exact hleaf.elim

/-- What is independent stands side by side, and nothing else is. -/
def Single : Outline → Prop
  | .both _ _ => False
  | .not a => a.Single
  | .and a b | .or a b => a.Single ∧ b.Single
  | _ => True

/-- **What is true of the leaves determines what is true of the outline.** -/
theorem truth_holdsBy {v : Expr → Bool} {truth : Nat → Bool} (hc : t.Consistent truth) :
    ∀ {o : Outline} {i : Nat}, o.Single → o.formula.Laid t i →
      (∀ l ∈ o.leaves i, truth l.1 = l.2.holdsBy v) → truth i = o.holdsBy v
  | .test _, i, _, _, hl | .loop .., i, _, _, hl => hl (i, _) (List.mem_singleton.mpr rfl)
  | .not a, i, hs, ⟨hlt, hk, hleft, ha⟩, hl => by
    rw [hc.not i hlt hk, hleft, holdsBy, truth_holdsBy hc (o := a) hs ha hl]
  | .and a b, i, hs, ⟨hlt, hk, hleft, hright, ha, hb⟩, hl => by
    rw [hc.and i hlt hk, hleft, hright, holdsBy,
      truth_holdsBy hc hs.1 ha fun l h => hl l (List.mem_append_left _ h)]
    exact congrArg _ (truth_holdsBy hc hs.2 hb fun l h => hl l (List.mem_append_right _ h))
  | .or a b, i, hs, ⟨hlt, hk, hleft, hright, ha, hb⟩, hl => by
    rw [hc.or i hlt hk, hleft, hright, holdsBy,
      truth_holdsBy hc hs.1 ha fun l h => hl l (List.mem_append_left _ h)]
    exact congrArg _ (truth_holdsBy hc hs.2 hb fun l h => hl l (List.mem_append_right _ h))

theorem truth_eq {kit : Toolkit} {data : Bytes} {outer : Field → Option Doc} {cur : Variable}
    {d : Doc} {truth : Nat → Bool} (hc : t.Consistent truth) {o : Outline} (hs : o.Single)
    (ho : o.formula.Laid t i)
    (hl : ∀ l ∈ o.leaves i, truth l.1 = l.2.exact kit data outer cur d) :
    truth i = o.exact kit data outer cur d := by
  rw [← holdsBy_exact]
  refine truth_holdsBy hc hs ho fun l h => ?_
  rw [holdsBy_exact]
  exact hl l h

/-- An outline is known once its leaves are. -/
theorem rests {bs : Nat → Prop} : ∀ {o : Outline} {i : Nat}, o.Single → o.formula.Laid t i →
    (∀ l ∈ o.leaves i, bs l.1) → t.Rests bs i
  | .test _, _, _, _, hl | .loop .., _, _, _, hl => .here (hl _ (List.mem_singleton.mpr rfl))
  | .not a, _, hs, ⟨hlt, hk, hleft, ha⟩, hl => by
    refine .not hlt hk ?_
    rw [hleft]
    exact rests (o := a) hs ha hl
  | .and _ _, _, hs, ⟨hlt, hk, hleft, hright, ha, hb⟩, hl => by
    refine .both hlt (.inl hk) ?_ ?_
    · rw [hleft]
      exact rests hs.1 ha fun l h => hl l (List.mem_append_left _ h)
    · rw [hright]
      exact rests hs.2 hb fun l h => hl l (List.mem_append_right _ h)
  | .or _ _, _, hs, ⟨hlt, hk, hleft, hright, ha, hb⟩, hl => by
    refine .both hlt (.inr hk) ?_ ?_
    · rw [hleft]
      exact rests hs.1 ha fun l h => hl l (List.mem_append_left _ h)
    · rw [hright]
      exact rests hs.2 hb fun l h => hl l (List.mem_append_right _ h)

end Outline

mutual

theorem Expr.single_outline : ∀ e : Expr, e.outline.Single
  | .and es => single_outlineOfChain true es
  | .or es => single_outlineOfChain false es
  | .not e => Expr.single_outline e
  | .loop _ _ _ _ | .truth _ | .value _ | .field _ | .func _ _ | .present _ | .absent _
  | .relation .. | .like .. => trivial

theorem single_outlineOfChain (conjunction : Bool) : ∀ es : List Expr,
    (outlineOfChain conjunction es).Single
  | [] => trivial
  | [e] => Expr.single_outline e
  | e :: e' :: rest => by
    have he := Expr.single_outline e
    have hr := single_outlineOfChain conjunction (e' :: rest)
    rw [outlineOfChain]
    · split
      · exact ⟨he, hr⟩
      · exact ⟨he, hr⟩
    · exact List.cons_ne_nil _ _

end

end Sift
