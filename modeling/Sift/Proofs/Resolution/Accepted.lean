import Sift.Proofs.Plan.Formed

/-!
# Which arrays are trees

An array of nodes is accepted if and only if it is the pre-order layout of one tree. Such trees are
those of formulas: a leaf has no child, a negation and a loop have a left one, a conjunction, a
disjunction and two independent formulas have both; a barrier stands for a loop or for the latter.
Every node names its parent, and the root names 0.

That the layout of a formula is accepted is known (`Formula.ofNodes_layout`). Here a valid tree is
read back, part by part from the last one on, as the formula whose layout it has
(`Valid.hasLayout`).

`Tree.ofNodes_tells_layouts` says it of every array of nodes, whatever its indices are, and of an
accepted one also that the nodes below a node are those that lead to it from parent to parent.
-/

namespace Sift.Resolution

open Plan

/-! ## 1. Formulas read back -/

theorem TreeNode.eq_mk {node : TreeNode} {kind : NodeKind} {left right : Nat}
    (hk : node.kind = kind) (hl : node.left = left) (hr : node.right = right) :
    node = ⟨node.parent, kind, left, right⟩ := by
  subst hk hl hr
  rfl

namespace Tree

variable {t : Tree}

theorem has_cons {i : Nat} {nodes : List TreeNode} (hi : i < t.size)
    (h : Formula.Has t (i + 1) nodes) : Formula.Has t i (t.node i :: nodes) := fun k hk => by
  cases k with
  | zero =>
    rw [List.getElem?_cons_zero, Nat.add_zero, node, Array.getElem?_eq_getElem hi]
    rfl
  | succ k =>
    rw [List.getElem?_cons_succ, ← h k (Nat.lt_of_succ_lt_succ hk), Nat.add_right_comm,
      Nat.add_assoc]

theorem has_append {i : Nat} {l r : List TreeNode} (hl : Formula.Has t i l)
    (hr : Formula.Has t (i + l.length) r) : Formula.Has t i (l ++ r) := fun k hk => by
  rcases Nat.lt_or_ge k l.length with hlt | hge
  · rw [hl k hlt, List.getElem?_append_left hlt]
  · rw [List.length_append] at hk
    rw [List.getElem?_append_right hge, ← hr _ (by omega), Nat.add_assoc, Nat.add_sub_cancel' hge]

/-- For each kind of node with two children there is a formula. -/
theorem exists_formula_two {kind : NodeKind} (hk : kind = .and ∨ kind = .or ∨ kind = .barrier)
    (a b : Formula) : ∃ f : Formula, f.size = a.size + b.size + 1 ∧ ∀ parent i, f.layout parent i =
      ⟨parent, kind, i + 1, i + 1 + a.size⟩ ::
        (a.layout i (i + 1) ++ b.layout i (i + 1 + a.size)) := by
  rcases hk with rfl | rfl | rfl
  · exact ⟨.and a b, rfl, fun _ _ => rfl⟩
  · exact ⟨.or a b, rfl, fun _ _ => rfl⟩
  · exact ⟨.both a b, rfl, fun _ _ => rfl⟩

/-- For each kind of node with one child there is a formula. -/
theorem exists_formula_one {kind : NodeKind} (hk : kind = .not ∨ kind = .barrier) (a : Formula) :
    ∃ f : Formula, f.size = a.size + 1 ∧ ∀ parent i, f.layout parent i =
      ⟨parent, kind, i + 1, 0⟩ :: a.layout i (i + 1) := by
  rcases hk with rfl | rfl
  · exact ⟨.not a, rfl, fun _ _ => rfl⟩
  · exact ⟨.loop a, rfl, fun _ _ => rfl⟩

/-- **Every part of a valid tree is the layout of a formula.** -/
theorem Valid.hasLayout (h : t.Valid) : ∀ i, i < t.size → ∃ f : Formula,
    i + f.size = t.stop i ∧ Formula.Has t i (f.layout (t.node i).parent i) := by
  refine backward fun i hi ih => ?_
  cases h.shape i hi with
  | leaf kind left right stop =>
    refine ⟨.leaf, stop.symm, ?_⟩
    rw [Formula.layout, ← TreeNode.eq_mk kind left right]
    exact has_cons hi fun _ hk => absurd hk (Nat.not_lt_zero _)
  | one kind left right child stop =>
    obtain ⟨a, hsize, ha⟩ := ih (i + 1) (Nat.lt_succ_self i) child.lt
    obtain ⟨f, hf, hlayout⟩ := exists_formula_one kind a
    rw [child.parent] at ha
    refine ⟨f, by omega, ?_⟩
    rw [hlayout, ← TreeNode.eq_mk rfl left right]
    exact has_cons hi ha
  | two kind left right child other stop =>
    obtain ⟨a, hsize, ha⟩ := ih (i + 1) (Nat.lt_succ_self i) child.lt
    have hlt := h.lt_stop (i + 1)
    obtain ⟨b, hsize', hb⟩ := ih (t.stop (i + 1)) (by omega) other.lt
    obtain ⟨f, hf, hlayout⟩ := exists_formula_two kind a b
    rw [child.parent] at ha
    rw [other.parent, ← hsize] at hb
    refine ⟨f, by omega, ?_⟩
    rw [hlayout, ← TreeNode.eq_mk rfl left (right.trans hsize.symm)]
    exact has_cons hi (has_append ha (by rwa [Formula.length_layout]))

/-- The nodes of a valid tree are the layout of a formula. -/
theorem Valid.nodes_eq_layout (h : t.Valid) : ∃ f : Formula, t.nodes.toList = f.layout 0 0 := by
  obtain ⟨f, hsize, hhas⟩ := h.hasLayout 0 h.pos
  rw [h.root] at hhas
  have hlen : (f.layout 0 0).length = t.nodes.toList.length := by
    rw [Formula.length_layout, Array.length_toList]
    exact (Nat.zero_add f.size).symm.trans (hsize.trans h.whole)
  refine ⟨f, List.ext_getElem? fun k => ?_⟩
  rcases Nat.lt_or_ge k (f.layout 0 0).length with hk | hk
  · rw [← hhas k hk, Nat.zero_add, Array.getElem?_toList]
  · rw [List.getElem?_eq_none hk, List.getElem?_eq_none (hlen ▸ hk)]

/-! ## 2. Acceptance -/

/-- Node `j`, which is not the root, says that its parent is node `i`. -/
def Links (nodes : Array TreeNode) (j i : Nat) : Prop :=
  0 < j ∧ ∃ h : j < nodes.size, nodes[j].parent = i

theorem links_iff {i j : Nat} : Links t.nodes j i ↔ 0 < j ∧ t.IsChild i j := by
  refine and_congr_right fun _ => ⟨?_, ?_⟩
  · rintro ⟨hj, rfl⟩
    exact ⟨hj, by simp [node, hj]⟩
  · rintro ⟨hj, rfl⟩
    exact ⟨hj, by simp [node, Array.getElem?_eq_getElem hj]⟩

/-- What lies below a node of a valid tree is what leads to it from parent to parent. -/
theorem Valid.below_iff_links (h : t.Valid) {i j : Nat} :
    t.isBelow i j = true ↔ Relation.TransGen (Links t.nodes) j i := by
  rw [h.below_iff_transGen, ← Relation.transGen_swap]
  refine iff_of_eq (congrArg (Relation.TransGen · j i) (funext₂ fun b a => propext ?_))
  exact links_iff.symm

/-- **Which arrays are trees.** Whatever the indices in an array of nodes are, it is accepted if it
    is the pre-order layout of a formula, with the parents and the children that go with it, and
    refused if it is the layout of none. Of an accepted array, the nodes counted as below a node are
    those that lead to it by their parents. -/
theorem ofNodes_tells_layouts (nodes : Array TreeNode) :
    match ofNodes nodes with
    | .ok t => (∃ f : Formula, nodes.toList = f.layout 0 0) ∧ t.nodes = nodes ∧
        t.ends.size = nodes.size ∧
        ∀ i j, t.isBelow i j = true ↔ Relation.TransGen (Links nodes) j i
    | .error _ => ∀ f : Formula, nodes.toList ≠ f.layout 0 0 := by
  split
  · next t ht =>
    obtain ⟨rfl, hv⟩ := valid_of_ofNodes ht
    exact ⟨hv.nodes_eq_layout, rfl, hv.ends, fun _ _ => hv.below_iff_links⟩
  · next e he =>
    intro f hf
    obtain ⟨t, ht⟩ := f.ofNodes_layout
    rw [← hf, Array.toArray_toList, he] at ht
    cases ht

end Tree

end Sift.Resolution
