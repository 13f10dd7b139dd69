import Sift.Standard
import Sift.Proofs.Plan.Compiled
import Sift.Proofs.Plan.Every
import Sift.Proofs.Plan.Formed

/-!
# A plan and its tree

A compiled plan has two halves that know of each other by their buckets alone. `Plan.Corresponds`
says in full how they go together:

* the tree is accepted, and each expression stands in it at its own bucket (`Expr.StandsAt`);
* a leaf is marked by one test, the barrier of a loop by one loop, and nothing else is marked;
* a test and a loop are in the body of the innermost loop that they were written in;
* each slot is at one node, what an operand names is around it, and a loop empties what its body
  captures.

`compileAll_corresponds` says that this holds of every plan that expressions are compiled into.
-/

namespace Sift

open Resolution
open Plan (Formula)

/-! ## 1. Tests and loops of a tree -/

namespace Resolution.Tree

variable {t : Tree} {b c : Nat}

/-- The node is that of a test. -/
def IsTest (t : Tree) (b : Nat) : Prop := b < t.size ∧ (t.node b).kind = .leaf

/-- The node is that of a loop: a barrier over one child. One over two holds expressions
    together. -/
def IsLoop (t : Tree) (b : Nat) : Prop :=
  b < t.size ∧ (t.node b).kind = .barrier ∧ (t.node b).right = 0

instance : Decidable (t.IsTest b) := inferInstanceAs (Decidable (_ ∧ _))

instance : Decidable (t.IsLoop b) := inferInstanceAs (Decidable (_ ∧ _))

/-- What the node is there for. -/
def task? (t : Tree) (b : Nat) : Option Task :=
  if t.IsTest b then some (.test b) else if t.IsLoop b then some (.loop b) else none

/-- **The node is that of a test or a loop in no loop** of those from `i` on. -/
structure Outermost (t : Tree) (i b : Nat) : Prop where
  marked : t.IsTest b ∨ t.IsLoop b
  outer : ∀ c, i ≤ c → t.IsLoop c → t.isBelow c b = false

/-- **The loop at `c` is the innermost one around `b`.** -/
structure Innermost (t : Tree) (c b : Nat) : Prop where
  loop : t.IsLoop c
  below : t.isBelow c b = true
  inner : ∀ d, t.IsLoop d → t.isBelow d b = true → d = c ∨ t.isBelow d c = true

theorem task?_of_test (h : t.IsTest b) : t.task? b = some (.test b) := if_pos h

theorem task?_of_loop (h : t.IsLoop b) : t.task? b = some (.loop b) := by
  have hne : ¬ t.IsTest b := fun ht => by
    have := ht.2.symm.trans h.2.1
    cases this
  rw [task?, if_neg hne, if_pos h]

theorem task?_of_unmarked (h : ¬ (t.IsTest b ∨ t.IsLoop b)) : t.task? b = none := by
  rw [not_or] at h
  rw [task?, if_neg h.1, if_neg h.2]

theorem not_below_of_le (h : b ≤ c) : t.isBelow c b = false := by
  refine Bool.eq_false_iff.mpr fun hb => ?_
  have := (isBelow_iff.mp hb).1
  omega

theorem outermost_succ {i : Nat} (h : ¬ (t.IsTest i ∨ t.IsLoop i)) :
    t.Outermost (i + 1) b ↔ t.Outermost i b := by
  refine ⟨fun ho => ⟨ho.marked, fun c hc hl => ho.outer c ?_ hl⟩,
    fun ho => ⟨ho.marked, fun c hc => ho.outer c (by omega)⟩⟩
  have : i ≠ c := fun he => h (.inr (he ▸ hl))
  omega

/-- The innermost loop is the one below which there is none around. -/
theorem innermost_iff (hc : t.IsLoop c) (hb : t.isBelow c b = true) :
    t.Innermost c b ↔ ∀ d, c + 1 ≤ d → t.IsLoop d → t.isBelow d b = false := by
  obtain ⟨hcb, -⟩ := isBelow_iff.mp hb
  constructor
  · intro h d hd hloop
    refine Bool.eq_false_iff.mpr fun hdb => ?_
    rcases h.inner d hloop hdb with rfl | hdc
    · omega
    · have := (isBelow_iff.mp hdc).1
      omega
  · refine fun h => ⟨hc, hb, fun d hloop hdb => ?_⟩
    rcases Nat.lt_trichotomy d c with hlt | rfl | hlt
    · have := (isBelow_iff.mp hdb).2
      exact .inr (isBelow_iff.mpr ⟨hlt, by omega⟩)
    · exact .inl rfl
    · rw [h d hlt hloop] at hdb
      cases hdb

end Resolution.Tree

/-! ## 2. Outlines in trees -/

namespace Outline

variable {t : Tree} {o : Outline} {i b : Nat}

/-- The first node of a connective is that of no test and no loop. -/
theorem unmarked {kind : NodeKind} (hk : (t.node i).kind = kind)
    (h : kind = .not ∨ kind = .and ∨ kind = .or ∨ kind = .barrier ∧ (t.node i).right ≠ 0) :
    ¬ (t.IsTest i ∨ t.IsLoop i) := by
  rintro (⟨-, ht⟩ | ⟨-, hl, hr⟩)
  · rw [hk] at ht
    subst ht
    rcases h with h | h | h | ⟨h, -⟩ <;> cases h
  · rw [hk] at hl
    subst hl
    rcases h with h | h | h | ⟨-, h⟩
    · cases h
    · cases h
    · cases h
    · exact h hr

/-- What is to be done for two outlines, if nothing is at the node that they stand below. -/
theorem tasks_two {a b : Outline} (hi : t.task? i = none)
    (ha : a.tasks (i + 1) = (List.range' (i + 1) a.size).filterMap t.task?)
    (hb : b.tasks (i + 1 + a.size) = (List.range' (i + 1 + a.size) b.size).filterMap t.task?) :
    (a.every (i + 1) ++ b.every (i + 1 + a.size)).map task =
      (List.range' i (a.size + b.size + 1)).filterMap t.task? := by
  rw [List.map_append, List.range'_succ, List.filterMap_cons_none hi, ← List.range'_append_1,
    List.filterMap_append, ← ha, ← hb]
  rfl

/-- **What is to be done for an outline** is what its nodes are there for. -/
theorem tasks_eq : ∀ {o : Outline} {i : Nat}, o.formula.Laid t i →
    o.tasks i = (List.range' i o.size).filterMap t.task?
  | .test _, i, h => by
    rw [size, formula, Formula.size, List.range'_one,
      List.filterMap_cons_some (Tree.task?_of_test h)]
    rfl
  | .loop _ _ _ _ inside, i, ⟨hlt, hk, _, hright, ha⟩ => by
    rw [size, formula, Formula.size, List.range'_succ,
      List.filterMap_cons_some (Tree.task?_of_loop ⟨hlt, hk, hright⟩)]
    exact congrArg _ (tasks_eq ha)
  | .not a, i, ⟨_, hk, _, ha⟩ => by
    have hi := Tree.task?_of_unmarked (unmarked hk (.inl rfl))
    rw [size, formula, Formula.size, List.range'_succ, List.filterMap_cons_none hi]
    exact tasks_eq (o := a) ha
  | .and _ _, _, ⟨_, hk, _, _, ha, hb⟩ =>
    tasks_two (Tree.task?_of_unmarked (unmarked hk (.inr (.inl rfl)))) (tasks_eq ha) (tasks_eq hb)
  | .or _ _, _, ⟨_, hk, _, _, ha, hb⟩ =>
    tasks_two (Tree.task?_of_unmarked (unmarked hk (.inr (.inr (.inl rfl))))) (tasks_eq ha)
      (tasks_eq hb)
  | .both _ _, _, ⟨_, hk, _, hr, ha, hb⟩ =>
    tasks_two (Tree.task?_of_unmarked (unmarked hk (.inr (.inr (.inr ⟨rfl, by omega⟩)))))
      (tasks_eq ha) (tasks_eq hb)

/-- The leaves of two outlines, if nothing is at the node that they stand below. -/
theorem mem_leaves_two (hv : t.Valid) {a b : Outline} {j : Nat}
    (hi : ¬ (t.IsTest i ∨ t.IsLoop i)) (hl : a.formula.Laid t (i + 1))
    (ha : j ∈ (a.leaves (i + 1)).map (·.1) ↔
      (i + 1 ≤ j ∧ j < i + 1 + a.size) ∧ t.Outermost (i + 1) j)
    (hb : j ∈ (b.leaves (i + 1 + a.size)).map (·.1) ↔
      (i + 1 + a.size ≤ j ∧ j < i + 1 + a.size + b.size) ∧ t.Outermost (i + 1 + a.size) j) :
    j ∈ (a.leaves (i + 1) ++ b.leaves (i + 1 + a.size)).map (·.1) ↔
      (i ≤ j ∧ j < i + (a.size + b.size + 1)) ∧ t.Outermost i j := by
  -- no loop of the first outline is around what is in the second
  have hpast (hj : i + 1 + a.size ≤ j) : t.Outermost (i + 1 + a.size) j ↔ t.Outermost i j := by
    refine ⟨fun h => ⟨h.marked, fun c hc hloop => ?_⟩, fun h => ⟨h.marked, fun c hc => ?_⟩⟩
    · rcases Nat.lt_or_ge c (i + 1 + a.size) with hlt | hge
      · refine Bool.eq_false_iff.mpr fun hbelow => ?_
        have hne : i ≠ c := fun he => hi (.inr (he ▸ hloop))
        have : t.stop c ≤ i + 1 + a.size := hl.stop_le hv (by omega) hlt
        have := (Tree.isBelow_iff.mp hbelow).2
        omega
      · exact h.outer c hge hloop
    · exact h.outer c (by omega)
  rw [List.map_append, List.mem_append, ha, hb, Tree.outermost_succ hi]
  constructor
  · rintro (⟨hr, h⟩ | ⟨hr, h⟩)
    · exact ⟨by omega, h⟩
    · exact ⟨by omega, (hpast hr.1).mp h⟩
  · rintro ⟨hr, h⟩
    have hne : i ≠ j := fun he => hi (he ▸ h.marked)
    rcases Nat.lt_or_ge j (i + 1 + a.size) with hlt | hge
    · exact .inl ⟨by omega, h⟩
    · exact .inr ⟨by omega, (hpast hge).mpr h⟩

/-- **The leaves of an outline** are the tests and loops that are in no loop of it. -/
theorem mem_leaves_iff (hv : t.Valid) {j : Nat} : ∀ {o : Outline} {i : Nat}, o.formula.Laid t i →
    (j ∈ (o.leaves i).map (·.1) ↔ (i ≤ j ∧ j < i + o.size) ∧ t.Outermost i j)
  | .test e, i, h => by
    have hmem : j ∈ ((Outline.test e).leaves i).map (·.1) ↔ j = i := List.mem_singleton
    have hsize : (Outline.test e).size = 1 := rfl
    rw [hmem, hsize]
    constructor
    · rintro rfl
      exact ⟨by omega, .inl h, fun c hc _ => Tree.not_below_of_le hc⟩
    · rintro ⟨hr, -⟩
      omega
  | .loop mode var target body inside, i, h => by
    have hmem : j ∈ ((Outline.loop mode var target body inside).leaves i).map (·.1) ↔ j = i :=
      List.mem_singleton
    have hloop : t.IsLoop i := ⟨h.1, h.2.1, h.2.2.2.1⟩
    rw [hmem]
    constructor
    · rintro rfl
      exact ⟨⟨Nat.le_refl _, Nat.lt_add_of_pos_right (size_pos _)⟩, .inr hloop,
        fun c hc _ => Tree.not_below_of_le hc⟩
    · rintro ⟨⟨hle, hlt⟩, ho⟩
      by_contra hne
      have hbelow := (h.isBelow_iff hv).mpr ⟨by omega, hlt⟩
      rw [ho.outer i (Nat.le_refl i) hloop] at hbelow
      cases hbelow
  | .not a, i, ⟨_, hk, _, ha⟩ => by
    have hi := unmarked hk (.inl rfl)
    have hsize : a.not.size = a.size + 1 := rfl
    rw [leaves, mem_leaves_iff hv (o := a) ha, Tree.outermost_succ hi, hsize]
    refine and_congr_left fun h => ?_
    have hne : i ≠ j := fun he => hi (he ▸ h.marked)
    omega
  | .and _ _, _, ⟨_, hk, _, _, ha, hb⟩ =>
    mem_leaves_two hv (unmarked hk (.inr (.inl rfl))) ha (mem_leaves_iff hv ha)
      (mem_leaves_iff hv hb)
  | .or _ _, _, ⟨_, hk, _, _, ha, hb⟩ =>
    mem_leaves_two hv (unmarked hk (.inr (.inr (.inl rfl)))) ha (mem_leaves_iff hv ha)
      (mem_leaves_iff hv hb)
  | .both _ _, _, ⟨_, hk, _, hr, ha, hb⟩ =>
    mem_leaves_two hv (unmarked hk (.inr (.inr (.inr ⟨rfl, by omega⟩)))) ha (mem_leaves_iff hv ha)
      (mem_leaves_iff hv hb)

end Outline

/-! ## 3. Expressions in trees -/

section Stands

variable {t : Tree} {b : Nat}

theorem Plan.Formula.Has.parent {f : Formula} {above : Nat}
    (h : Formula.Has t b (f.layout above b)) : (t.node b).parent = above := by
  cases f with
  | _ => exact congrArg (·.parent) h.head.2

/-- The nodes of a tree have those of each leaf, in loops as well. -/
theorem Outline.has_of_every {l : Nat × Outline} : ∀ {o : Outline} {i above : Nat},
    Formula.Has t i (o.formula.layout above i) → l ∈ o.every i →
      ∃ above', Formula.Has t l.1 (l.2.formula.layout above' l.1)
  | .test _, _, above, h, hl => by
    rw [List.mem_singleton.mp hl]
    exact ⟨above, h⟩
  | .loop _ _ _ _ inside, _, above, h, hl => by
    rcases List.mem_cons.mp hl with rfl | hl
    · exact ⟨above, h⟩
    · exact has_of_every (o := inside) h.tail hl
  | .not a, _, _, h, hl => has_of_every (o := a) h.tail hl
  | .and a b, _, _, h, hl | .or a b, _, _, h, hl | .both a b, _, _, h, hl => by
    have hb := h.tail.right
    rw [Formula.length_layout] at hb
    rcases List.mem_append.mp hl with hl | hl
    · exact has_of_every h.tail.left hl
    · exact has_of_every hb hl

/-- **The expression stands in the tree** at bucket `b`. -/
structure Expr.StandsAt (t : Tree) (e : Expr) (b : Nat) : Prop where
  /-- The nodes from `b` on are its connectives, two at a time, its tests and its loops over their
      bodies, in pre-order. -/
  nodes : Formula.Has t b (e.outline.formula.layout (t.node b).parent b)
  /-- Nothing else is below `b`. -/
  stop : t.stop b = b + e.outline.size
  /-- Whatever its tests and loops come to, the tree makes of it what its connectives do, over
      lists of any length. -/
  truth : ∀ (v : Expr → Bool) (given : Nat → Bool), (∀ x, v (.truth x) = x) →
    (∀ l ∈ e.outline.leaves b, given l.1 = l.2.holdsBy v) → t.truth given b = e.holdsBy v

theorem Expr.standsAt_of_has (hv : t.Valid) {e : Expr} {above : Nat}
    (h : Formula.Has t b (e.outline.formula.layout above b)) : e.StandsAt t b where
  nodes := by
    rw [h.parent]
    exact h
  stop := (Formula.laid_of_has _ h).stop hv
  truth v given hconst hleaves := by
    have hlaid := Formula.laid_of_has _ h
    rw [← holdsBy_outline hconst]
    refine Outline.truth_holdsBy (Tree.consistent_truth hv given) e.single_outline hlaid
      fun l hl => ?_
    rw [Tree.truth_of_leaf (Outline.leaf_kind hlaid hl)]
    exact hleaves l hl

end Stands

/-- The leaves of several expressions, in loops as well, are those of each. -/
theorem Plan.mem_every_of_all {es : List Expr} {i : Nat} {l : Nat × Outline} (hne : es ≠ []) :
    l ∈ (outlineOfAll es).every i ↔
      ∃ q ∈ es.zip (startsOf es i), l ∈ q.1.outline.every q.2 := by
  constructor
  · intro h
    obtain ⟨l', hl', hl⟩ := Outline.mem_every.mp h
    obtain ⟨q, hq, hl'⟩ := (mem_leaves_of_all hne).mp hl'
    exact ⟨q, hq, Outline.mem_every.mpr ⟨l', hl', hl⟩⟩
  · rintro ⟨q, hq, h⟩
    obtain ⟨l', hl', hl⟩ := Outline.mem_every.mp h
    exact Outline.mem_every.mpr ⟨l', (mem_leaves_of_all hne).mpr ⟨q, hq, hl'⟩, hl⟩

/-! ## 4. Tests and loops of a plan -/

namespace Plan

/-- The tests of a plan, those in the bodies of loops included. -/
def everyTest (p : Plan) : List Test := p.root.everyPart.filterMap Part.test?

/-- The loops of a plan, those in the bodies of others included. -/
def everyLoop (p : Plan) : List Loop := p.root.everyPart.filterMap Part.loop?

variable {p : Plan} {n : Nat} {t : Tree}

/-- The buckets of some of the parts, if the plan does what the tree asks for. -/
theorem bucket_perm {α : Type} {f : Part → Option α} {bucket : α → Nat} {g : Task → Option Nat}
    {P : Nat → Prop} [DecidablePred P]
    (h : (p.root.everyPart.filterMap Part.task?).Perm ((List.range n).filterMap t.task?))
    (hf : ∀ part, (f part).map bucket = part.task?.bind g)
    (hP : ∀ b, (t.task? b).bind g = if P b then some b else none) :
    ((p.root.everyPart.filterMap f).map bucket).Perm ((List.range n).filter (P ·)) := by
  have hparts : (p.root.everyPart.filterMap f).map bucket =
      (p.root.everyPart.filterMap Part.task?).filterMap g := by
    rw [List.map_filterMap, List.filterMap_filterMap]
    exact List.filterMap_congr fun part _ => hf part
  have htree : (List.range n).filter (P ·) = ((List.range n).filterMap t.task?).filterMap g := by
    rw [List.filterMap_filterMap, ← List.filterMap_eq_filter]
    refine List.filterMap_congr fun b _ => ?_
    rw [hP, Option.guard]
    simp
  rw [hparts, htree]
  exact h.filterMap _

theorem everyTest_perm
    (h : (p.root.everyPart.filterMap Part.task?).Perm ((List.range n).filterMap t.task?)) :
    (p.everyTest.map (·.bucket)).Perm ((List.range n).filter (t.IsTest ·)) := by
  refine bucket_perm h (g := Task.test?) (fun part => ?_) fun b => ?_
  · cases part with
    | _ => rfl
  · by_cases ht : t.IsTest b
    · rw [Tree.task?_of_test ht, if_pos ht]
      rfl
    · rw [Tree.task?, if_neg ht, if_neg ht]
      split
      · rfl
      · rfl

theorem everyLoop_perm
    (h : (p.root.everyPart.filterMap Part.task?).Perm ((List.range n).filterMap t.task?)) :
    (p.everyLoop.map (·.bucket)).Perm ((List.range n).filter (t.IsLoop ·)) := by
  refine bucket_perm h (g := Task.loop?) (fun part => ?_) fun b => ?_
  · cases part with
    | _ => rfl
  · by_cases hl : t.IsLoop b
    · rw [Tree.task?_of_loop hl, if_pos hl]
      rfl
    · rw [Tree.task?, if_neg hl, if_neg hl]
      split
      · rfl
      · rfl

/-! ## 5. The correspondence -/

/-- **A plan and its tree go together**, and with the expressions that they are made of. -/
structure Corresponds (kit : Toolkit) (p : Plan) (es : List Expr) : Prop where
  accepted : Tree.ofNodes p.tree.nodes = .ok p.tree
  length : p.buckets.length = es.length
  stands : ∀ q ∈ es.zip p.buckets, q.1.StandsAt p.tree q.2
  /-- The body of a loop of the plan stands in the tree as well, after the barrier of the loop that
      it has been written in. -/
  bodies : ∀ l ∈ p.everyLoop, ∃ q ∈ es.zip p.buckets, ∃ (var : Variable) (f : Field) (body : Expr),
    (l.bucket, .loop l.mode var (.field f) body body.outline) ∈ q.1.outline.every q.2 ∧
      body.StandsAt p.tree (l.bucket + 1)
  /-- A constant, such as an empty list comes to, has its value over any document. -/
  constants : ∀ q ∈ es.zip p.buckets, ∀ b x, (b, .test (.truth x)) ∈ q.1.outline.every q.2 →
    ∀ w ∈ p.everyTest, w.bucket = b → ∀ captured v, w.check.holds kit.decimals captured v = x
  /-- Each leaf has one test, and nothing else has. -/
  tests : (p.everyTest.map (·.bucket)).Perm
    ((List.range p.tree.size).filter (p.tree.IsTest ·))
  /-- The barrier of each loop has one loop, and nothing else has. -/
  loops : (p.everyLoop.map (·.bucket)).Perm
    ((List.range p.tree.size).filter (p.tree.IsLoop ·))
  /-- What is in no loop is in the root. -/
  outermost : ∀ b, b ∈ p.root.buckets ↔ p.tree.Outermost 0 b
  /-- What is in a loop is in the body of the innermost one around it. -/
  inside : ∀ l ∈ p.everyLoop, ∀ b, b ∈ l.body.buckets ↔
    (p.tree.IsTest b ∨ p.tree.IsLoop b) ∧ p.tree.Innermost l.bucket b
  slots : p.root.slots.Perm (List.range p.slots)
  /-- A slot that an operand names is one of its own scope or of one around that. -/
  operands : ∀ n outer, Scopes p.root (n :: outer) → ∀ q ∈ n.parts, ∀ s ∈ q.2.reads,
    ∃ m ∈ n :: outer, ∃ path, (s, path) ∈ m.places
  /-- What a loop empties is what is captured in its own scope. -/
  locals : ∀ l ∈ p.everyLoop, ∀ s, s ∈ l.locals ↔ ∃ path, (s, path) ∈ l.body.places

namespace Compiled

variable {kit : Toolkit} {p : Plan} {es : List Expr}

theorem renders (h : p.Compiled kit es) :
    p.root.Renders kit p.tree [(Variable.root, p.root.places)] (outlineOfAll es) 0 :=
  ⟨h.laid, h.built, h.tidy⟩

theorem mem_every (h : p.Compiled kit es) {l : Nat × Outline} :
    l ∈ (outlineOfAll es).every 0 ↔ ∃ q ∈ es.zip p.buckets, l ∈ q.1.outline.every q.2 := by
  rw [h.buckets]
  exact mem_every_of_all h.ne

theorem size_eq (h : p.Compiled kit es) : (outlineOfAll es).size = p.tree.size := by
  rw [Resolution.Tree.size, h.nodes, List.size_toArray, Formula.length_layout]
  rfl

/-- Every part of the plan is in a scope that is built of an outline. -/
theorem scope_of_part (h : p.Compiled kit es) {part : Part} (hp : part ∈ p.root.everyPart) :
    ∃ (n : Node) (Γ : Homes) (o : Outline) (i : Nat) (q : Path), (q, part) ∈ n.parts ∧
      n.Renders kit p.tree Γ o i ∧ o.every i ⊆ (outlineOfAll es).every 0 := by
  obtain ⟨n, outer, q, hs, hq⟩ := Scopes.root.of_everyPart hp
  obtain ⟨Γ, o, i, hn, -, hsub⟩ := hs.origin h.renders n outer rfl
  exact ⟨n, Γ, o, i, q, hq, hn, hsub⟩

/-- **A loop of the plan** is one that has been written, and so is its body. -/
theorem loop_origin (h : p.Compiled kit es) {l : Loop} (hl : l ∈ p.everyLoop) :
    ∃ (Γ : Homes) (var : Variable) (f : Field) (body : Expr),
      (l.bucket, .loop l.mode var (.field f) body body.outline) ∈ (outlineOfAll es).every 0 ∧
        l.body.Renders kit p.tree Γ body.outline (l.bucket + 1) := by
  obtain ⟨part, hpart, hl⟩ := List.mem_filterMap.mp hl
  obtain ⟨n, Γ, o, i, q, hq, hn, hsub⟩ := h.scope_of_part hpart
  obtain ⟨var, f, body, hleaf, hbody⟩ := hn.body hq hl
  exact ⟨_, var, f, body, hsub (Outline.mem_every.mpr ⟨_, hleaf, List.mem_cons_self⟩), hbody⟩

theorem locals_iff (h : p.Compiled kit es) {l : Loop} (hl : l ∈ p.everyLoop) (s : Nat) :
    s ∈ l.locals ↔ ∃ path, (s, path) ∈ l.body.places := by
  obtain ⟨part, hpart, hl⟩ := List.mem_filterMap.mp hl
  obtain ⟨n, Γ, o, i, q, hq, hn, -⟩ := h.scope_of_part hpart
  exact (hn.tidy.parts _ _ hq l hl).1 s

/-- The body of a loop has the tests and loops that it is the innermost one around. -/
theorem mem_body (h : p.Compiled kit es) {l : Loop} (hl : l ∈ p.everyLoop) (b : Nat) :
    b ∈ l.body.buckets ↔
      (p.tree.IsTest b ∨ p.tree.IsLoop b) ∧ p.tree.Innermost l.bucket b := by
  obtain ⟨Γ, var, f, body, hleaf, hbody⟩ := h.loop_origin hl
  obtain ⟨_, hhas⟩ := Outline.has_of_every h.has hleaf
  have hlaid := Formula.laid_of_has _ hhas
  have hloop : p.tree.IsLoop l.bucket := ⟨hlaid.1, hlaid.2.1, hlaid.2.2.2.1⟩
  have hstop : p.tree.stop l.bucket = l.bucket + (body.outline.size + 1) := hlaid.stop h.tree
  rw [hbody.built.covers.mem_iff, Outline.mem_leaves_iff h.tree hbody.laid]
  constructor
  · rintro ⟨hr, ho⟩
    have hbelow : p.tree.isBelow l.bucket b = true := Tree.isBelow_iff.mpr (by omega)
    exact ⟨ho.marked, (Tree.innermost_iff hloop hbelow).mpr ho.outer⟩
  · rintro ⟨hm, hi⟩
    have hr := Tree.isBelow_iff.mp hi.below
    exact ⟨by omega, hm, (Tree.innermost_iff hloop hi.below).mp hi⟩

/-- The root has the tests and loops that are in no loop. -/
theorem mem_root (h : p.Compiled kit es) (b : Nat) : b ∈ p.root.buckets ↔ p.tree.Outermost 0 b := by
  rw [h.built.covers.mem_iff, Outline.mem_leaves_iff h.tree h.laid, h.size_eq]
  refine ⟨fun ho => ho.2, fun ho => ⟨⟨Nat.zero_le b, ?_⟩, ho⟩⟩
  rw [Nat.zero_add]
  exact ho.marked.elim (·.1) (·.1)

/-- A test that a constant stands for has its value. -/
theorem holds_of_truth (h : p.Compiled kit es) {w : Test} (hw : w ∈ p.everyTest) {x : Bool}
    (hx : (w.bucket, .test (.truth x)) ∈ (outlineOfAll es).every 0) (captured : Nat → Value)
    (v : Value) : w.check.holds kit.decimals captured v = x := by
  obtain ⟨part, hpart, hw⟩ := List.mem_filterMap.mp hw
  obtain ⟨n, Γ, o, i, q, hq, hn, hsub⟩ := h.scope_of_part hpart
  have hworks : part.Works := fun s hs => by
    rw [hs] at hw
    cases hw
  obtain ⟨⟨b, leaf⟩, hleaf, hb⟩ := hn.built.built _ hq hworks
  have holds {active : Option Path} {check : Check} (hs : check.Serves kit Γ active (.truth x)) :
      check.holds kit.decimals captured v = x := by
    rw [hs.holds (fun _ => .missing) captured v ⟨nofun, nofun⟩]
    cases x
    · rfl
    · rfl
  have hsame (e : Expr) (he : leaf = .test e) (hbucket : b = w.bucket) : e = .truth x := by
    subst hbucket
    have hm := hsub (Outline.mem_every.mpr ⟨_, hleaf, by rw [he]; exact List.mem_singleton.mpr rfl⟩)
    cases Outline.eq_of_every hm hx
    rfl
  cases hb with
  | @test _ _ _ _ e _ _ serves =>
    cases hw
    exact holds (hsame e rfl rfl ▸ serves)
  | @afterTest _ _ _ e _ _ serves =>
    cases hw
    exact holds (hsame e rfl rfl ▸ serves)
  | loop | afterLoop => cases hw

/-- What an operand names is a slot of a scope around it. -/
theorem place_of_read (h : p.Compiled kit es) {n : Node} {outer : List Node}
    (hs : Scopes p.root (n :: outer)) {q : Path × Part} (hq : q ∈ n.parts) {s : Nat}
    (hr : s ∈ q.2.reads) : ∃ m ∈ n :: outer, ∃ path, (s, path) ∈ m.places := by
  obtain ⟨Γ, o, i, hn, hplaces, -⟩ := hs.origin h.renders n outer rfl
  have hworks : q.2.Works := fun s' hs' => by
    rw [hs'] at hr
    cases hr
  obtain ⟨l, -, hb⟩ := hn.built.built q hq hworks
  obtain ⟨f, hf⟩ := hb.home hr
  obtain ⟨places, hm, hp⟩ := hf.mem
  rw [hplaces] at hm
  obtain ⟨m, hmem, rfl⟩ := List.mem_map.mp hm
  exact ⟨m, hmem, f.path, hp⟩

/-- The plan does what the tree asks for. -/
theorem tasks_perm (h : p.Compiled kit es) : (p.root.everyPart.filterMap Part.task?).Perm
    ((List.range p.tree.size).filterMap p.tree.task?) := by
  rw [List.range_eq_range', ← h.size_eq, ← Outline.tasks_eq h.laid]
  exact h.built.tasks_perm

/-- **A compiled plan corresponds to its tree.** -/
theorem corresponds (h : p.Compiled kit es) : p.Corresponds kit es where
  accepted := h.accepted
  length := h.length_buckets
  stands q hq := by
    obtain ⟨_, hhas⟩ := h.has_of_mem hq
    exact Expr.standsAt_of_has h.tree hhas
  bodies l hl := by
    obtain ⟨_, var, f, body, hleaf, -⟩ := h.loop_origin hl
    obtain ⟨q, hq, hleaf⟩ := h.mem_every.mp hleaf
    obtain ⟨_, hhas⟩ := h.has_of_mem hq
    obtain ⟨_, hloop⟩ := Outline.has_of_every hhas hleaf
    exact ⟨q, hq, var, f, body, hleaf, Expr.standsAt_of_has h.tree hloop.tail⟩
  constants q hq b x hx w hw hb captured v := by
    subst hb
    exact h.holds_of_truth hw (h.mem_every.mpr ⟨q, hq, hx⟩) captured v
  tests := everyTest_perm h.tasks_perm
  loops := everyLoop_perm h.tasks_perm
  outermost := h.mem_root
  inside _ := h.mem_body
  slots := by
    refine (List.perm_ext_iff_of_nodup h.tidy.slots List.nodup_range).mpr fun s => ?_
    rw [h.slots, List.mem_range]
  operands _ _ hs _ hq _ hr := h.place_of_read hs hq hr
  locals _ := h.locals_iff

end Compiled

/-- **What expressions are compiled into.** The tree is never refused, and the plan corresponds to
    it. -/
theorem compileAll_corresponds (kit : Toolkit) (es : List Expr) :
    (∀ e, compileAll kit es ≠ .error (.tree e)) ∧
      ∀ p, compileAll kit es = .ok p → p.Corresponds kit es := by
  refine ⟨fun e h => ?_, fun p h => (compiled_of_compileAll h).corresponds⟩
  rcases compileAll_error h with ⟨-, he⟩ | ⟨-, he⟩
  · cases he
  · exact he

/-- A loop in a loop, whose body looks out of it, beside an empty list. -/
def nestedLoops : Expr :=
  .and [.loop .any 1 (.field ⟨Variable.root, ["rows"]⟩)
      (.or [.relation .equals (.field ⟨1, ["id"]⟩) (.field ⟨Variable.root, ["id"]⟩),
        .loop .every 2 (.field ⟨1, ["cells"]⟩) (.field ⟨2, []⟩)]),
    .or []]

theorem compileAll_corresponds_nestedLoops :
    ∃ p, compileAll .standard [nestedLoops, .not nestedLoops] = .ok p ∧
      p.Corresponds .standard [nestedLoops, .not nestedLoops] := by
  have hformed : Expr.AllFormed .standard [.root] [nestedLoops, .not nestedLoops] := by
    simp [Expr.AllFormed, nestedLoops, Expr.Formed, Expr.IsOperand]
  obtain ⟨p, hp⟩ := (compileAll_isOk _ _).mpr ⟨List.cons_ne_nil _ _, hformed⟩
  exact ⟨p, hp, (compileAll_corresponds _ _).2 p hp⟩

end Plan

end Sift
