import Sift.Proofs.Plan.Faithful
import Sift.Proofs.Plan.Steps

/-!
# Compiled plans

What compiling comes to as a whole is a `Plan.Compiled` (`compiled_of_compileAll`): the resolution
tree has the outlines of all expressions side by side, and the parts of the root are built of their
leaves. So the root is tidy and fits the tree (`Compiled.fits`), and over any document it is right
in a scene where the truth of each expression is what is made of it (`Compiled.means`).
-/

namespace Sift

open Resolution

/-! ## 1. Outlines side by side -/

namespace Plan

variable {t : Tree}

/-- Where an outline of several expressions stands, each of them stands on its own. -/
theorem has_of_all : ∀ {es : List Expr} {parent i : Nat},
    Formula.Has t i ((outlineOfAll es).formula.layout parent i) → ∀ p ∈ es.zip (startsOf es i),
      ∃ above, Formula.Has t p.2 (p.1.outline.formula.layout above p.2)
  | [], _, _, _ => nofun
  | [e], parent, i, h => by
    intro p hp
    rw [startsOf, List.zip_cons_cons, List.zip_nil_left, List.mem_singleton] at hp
    rw [hp]
    exact ⟨parent, h⟩
  | e :: e' :: rest, _, i, h => by
    have he : Formula.Has t (i + 1) (e.outline.formula.layout i (i + 1)) := h.tail.left
    have hrest := h.tail.right
    rw [Formula.length_layout] at hrest
    intro p hp
    rw [startsOf, List.zip_cons_cons] at hp
    · rcases List.mem_cons.mp hp with rfl | hp
      · exact ⟨i, he⟩
      · exact has_of_all hrest p hp
    · exact List.cons_ne_nil _ _

/-- The leaves of several expressions are those of each. -/
theorem mem_leaves_of_all {l : Nat × Outline} : ∀ {es : List Expr} {i : Nat}, es ≠ [] →
    (l ∈ (outlineOfAll es).leaves i ↔ ∃ p ∈ es.zip (startsOf es i), l ∈ p.1.outline.leaves p.2)
  | [], _, h => absurd rfl h
  | [e], i, _ => by
    rw [startsOf, List.zip_cons_cons, List.zip_nil_left]
    simp only [List.mem_singleton, exists_eq_left]
    rfl
  | e :: e' :: rest, i, _ => by
    rw [startsOf, List.zip_cons_cons]
    · have hrest := mem_leaves_of_all (l := l) (i := i + 1 + e.outline.size)
        (List.cons_ne_nil e' rest)
      simp only [List.mem_cons, exists_eq_or_imp, ← hrest]
      exact List.mem_append
    · exact List.cons_ne_nil _ _

theorem length_startsOf : ∀ (es : List Expr) (i : Nat), (startsOf es i).length = es.length
  | [], _ => rfl
  | [_], _ => rfl
  | e :: e' :: rest, i => by
    rw [startsOf, List.length_cons, length_startsOf (e' :: rest), ← List.length_cons]
    exact List.cons_ne_nil _ _

theorem le_of_mem_startsOf {b : Nat} : ∀ {es : List Expr} {i : Nat}, b ∈ startsOf es i → i ≤ b
  | [_], _, h => Nat.le_of_eq (List.mem_singleton.mp h).symm
  | e :: e' :: rest, i, h => by
    rw [startsOf] at h
    · rcases List.mem_cons.mp h with rfl | h
      · exact Nat.le_succ i
      · have := le_of_mem_startsOf h
        omega
    · exact List.cons_ne_nil _ _

/-- **What stands above an expression** is there only to hold the expressions together. -/
theorem glue_above (hv : t.Valid) {b j : Nat} : ∀ {es : List Expr} {i : Nat},
    (outlineOfAll es).formula.Laid t i → b ∈ startsOf es i → i ≤ j → t.isBelow j b = true →
    (t.node j).kind = .barrier ∧ ∀ b' ∈ startsOf es i, ¬ (j = b' ∨ t.isBelow b' j = true)
  | [_], i, _, hb, hj, hbelow => by
    rw [List.mem_singleton.mp hb] at hbelow
    have := (Tree.isBelow_iff.mp hbelow).1
    omega
  | e :: e' :: rest, i, h, hb, hj, hbelow => by
    obtain ⟨hlt, hkind, hleft, hright, he, hrest⟩ := h
    have hpos := e.outline.size_pos
    have hend : t.stop (i + 1) = i + 1 + e.outline.size := he.stop hv
    have hjb := (Tree.isBelow_iff.mp hbelow).1
    have hstarts : startsOf (e :: e' :: rest) i =
        (i + 1) :: startsOf (e' :: rest) (i + 1 + e.outline.size) := rfl
    rw [hstarts, List.mem_cons] at hb
    simp only [hstarts, List.forall_mem_cons, Tree.isBelow_iff]
    have hge {b' : Nat} (hb' : b' ∈ startsOf (e' :: rest) (i + 1 + e.outline.size)) :=
      le_of_mem_startsOf hb'
    rcases Nat.eq_or_lt_of_le hj with rfl | hj
    · refine ⟨hkind, by omega, fun b' hb' => ?_⟩
      have := hge hb'
      omega
    · -- what begins with the first expression ends with it
      have hj₁ : i + 1 + e.outline.size ≤ j := by
        by_contra hlt₁
        have hb := hb.resolve_left (by omega)
        have hstop : t.stop j ≤ i + 1 + e.outline.size :=
          he.stop_le hv hj (Nat.lt_of_not_le hlt₁)
        have := hge hb
        have := (Tree.isBelow_iff.mp hbelow).2
        omega
      have hb := hb.resolve_left (by omega)
      obtain ⟨hk, hno⟩ := glue_above hv hrest hb hj₁ hbelow
      refine ⟨hk, by omega, fun b' hb' => ?_⟩
      rw [← Tree.isBelow_iff]
      exact hno b' hb'

end Plan

/-! ## 2. What compiling comes to -/

/-- **A plan that expressions have been compiled into.** -/
structure Plan.Compiled (kit : Toolkit) (p : Plan) (es : List Expr) : Prop where
  ne : es ≠ []
  accepted : Tree.ofNodes p.tree.nodes = .ok p.tree
  nodes : p.tree.nodes = ((outlineOfAll es).formula.layout 0 0).toArray
  buckets : p.buckets = startsOf es 0
  tidy : p.root.Tidy
  built : p.root.BuiltOf kit [(Variable.root, p.root.places)] ((outlineOfAll es).leaves 0)
  slots : ∀ s, s ∈ p.root.slots ↔ s < p.slots

/-- **What compiling comes to.** -/
theorem Plan.compiled_of_compileAll {kit : Toolkit} {es : List Expr} {p : Plan}
    (h : compileAll kit es = .ok p) : p.Compiled kit es := by
  have hgood : Draft.Good [] ⟨0, 0, [⟨.root, .empty, []⟩]⟩ := by
    refine ⟨List.cons_ne_nil _ _, fun sc hm => ?_, List.nodup_nil, fun s => ⟨nofun, nofun⟩,
      fun sc hm s => ?_, fun sc hm p hp => ?_⟩
    · rw [List.mem_singleton.mp hm]
      exact Node.named_empty
    · rw [List.mem_singleton.mp hm]
      exact ⟨fun h => (by cases h), fun h => (by obtain ⟨_, h⟩ := h; cases h)⟩
    · rw [List.mem_singleton.mp hm] at hp
      cases hp
  unfold compileAll at h
  obtain ⟨⟨⟨f, buckets⟩, d⟩, hrun, h⟩ := Tree.of_bind_ok h
  obtain ⟨hne, hf, hbuckets, hgood', hadds, -⟩ := yields_batch es hgood _ _ hrun
  obtain ⟨hs, hs', hin, hout⟩ := hadds
  cases hs
  cases hout
  rename_i sc
  dsimp only at h hf hbuckets
  split at h
  · next tree htree =>
    cases h
    have hnodes := (Tree.valid_of_ofNodes htree).1
    have hroot : ((d.scopes.head?).map (·.node)).getD .empty = sc.node := by rw [hs']; rfl
    have hsc : sc ∈ d.scopes := by
      rw [hs']
      exact List.mem_singleton.mpr rfl
    have hhomes : d.homes = [(Variable.root, sc.node.places)] := by
      rw [Draft.homes, hs', List.map_cons, hin.var]
      rfl
    refine ⟨hne, by rw [hnodes, htree], hf ▸ hnodes, hbuckets, ?_, ?_, fun s => ?_⟩
    · rw [hroot]
      exact hgood'.tidy hsc
    · rw [hroot, ← hhomes]
      exact ⟨fun p hp hw => (hin.new p hp hw).resolve_left fun h => (by cases h),
        hin.buckets.trans (.of_eq (List.append_nil _))⟩
    · rw [hroot, ← hgood'.given, List.nil_append, Draft.used, hs']
      simp
  · cases h

namespace Plan

/-- How a walk over a document is bounded: a barrier is marked only if it is in an expression. -/
def course (kit : Toolkit) (p : Plan) (data : Bytes) : Course where
  kit
  data
  tree := p.tree
  count := p.slots
  marked b := ∃ i ∈ p.buckets, b = i ∨ p.tree.isBelow i b = true

/-- The root may count on nothing but what is true of the leaves. -/
def scene (kit : Toolkit) (p : Plan) (es : List Expr) (data : Bytes) (d : Doc) : Scene where
  truth := p.tree.truth
    (Outline.given kit data (fun _ => none) Variable.root d ((outlineOfAll es).leaves 0))
  held _ := none
  reads _ := False
  now _ := True

/-- At the start no scope is further out, and nothing has been captured. -/
theorem scene_suits {kit : Toolkit} {p : Plan} {es : List Expr} {data : Bytes} {d : Doc}
    {free : List Field} :
    (p.scene kit es data d).Suits [(Variable.root, p.root.places)] (fun _ => none) free p.root where
  places f s hr hs := by
    rwa [Home, if_pos (show f.root = Variable.root from hr)] at hs
  outer f _ hr s hs := by
    rw [Home, if_neg (show f.root ≠ Variable.root from hr)] at hs
    exact hs.elim
  apart _ := False.elim
  empty _ _ := rfl

namespace Compiled

variable {kit : Toolkit} {p : Plan} {es : List Expr} {data : Bytes} {d : Doc}

theorem tree (h : p.Compiled kit es) : p.tree.Valid := (Tree.valid_of_ofNodes h.accepted).2

/-- The tree has the nodes of the outlines, and no more. -/
theorem has (h : p.Compiled kit es) :
    Formula.Has p.tree 0 ((outlineOfAll es).formula.layout 0 0) := fun k _ => by
  rw [h.nodes, Nat.zero_add]
  exact List.getElem?_toArray

theorem laid (h : p.Compiled kit es) : (outlineOfAll es).formula.Laid p.tree 0 :=
  Formula.laid_of_has _ h.has

/-- The outline of an expression stands at its bucket. -/
theorem has_of_mem (h : p.Compiled kit es) {e : Expr} {b : Nat} (hp : (e, b) ∈ es.zip p.buckets) :
    ∃ above, Formula.Has p.tree b (e.outline.formula.layout above b) := by
  rw [h.buckets] at hp
  exact has_of_all h.has (e, b) hp

theorem laid_of_mem (h : p.Compiled kit es) {e : Expr} {b : Nat} (hp : (e, b) ∈ es.zip p.buckets) :
    e.outline.formula.Laid p.tree b := by
  obtain ⟨_, hhas⟩ := h.has_of_mem hp
  exact Formula.laid_of_has _ hhas

theorem mem_leaves (h : p.Compiled kit es) {l : Nat × Outline} :
    l ∈ (outlineOfAll es).leaves 0 ↔ ∃ q ∈ es.zip p.buckets, l ∈ q.1.outline.leaves q.2 := by
  rw [h.buckets]
  exact mem_leaves_of_all h.ne

theorem length_buckets (h : p.Compiled kit es) : p.buckets.length = es.length := by
  rw [h.buckets, length_startsOf]

/-- The bucket of the expression of an index. -/
theorem mem_zip (h : p.Compiled kit es) {i : Nat} (hi : i < es.length) :
    (es[i], p.buckets.get ⟨i, h.length_buckets ▸ hi⟩) ∈ es.zip p.buckets := by
  have hz : i < (es.zip p.buckets).length := by
    rw [List.length_zip, h.length_buckets, Nat.min_self]
    exact hi
  have hm := List.getElem_mem hz
  rwa [List.getElem_zip] at hm

/-- Every bucket is that of an expression. -/
theorem expr_of_bucket (h : p.Compiled kit es) {b : Nat} (hb : b ∈ p.buckets) :
    ∃ e, (e, b) ∈ es.zip p.buckets := by
  obtain ⟨i, hi, rfl⟩ := List.mem_iff_getElem.mp hb
  exact ⟨_, h.mem_zip (h.length_buckets ▸ hi)⟩

theorem bucket_of_expr (h : p.Compiled kit es) {e : Expr} (he : e ∈ es) :
    ∃ b, (e, b) ∈ es.zip p.buckets := by
  obtain ⟨i, hi, rfl⟩ := List.mem_iff_getElem.mp he
  exact ⟨_, h.mem_zip hi⟩

/-- **The root fits the tree.** -/
theorem fits (h : p.Compiled kit es) : p.root.Fits (p.course kit data) none := by
  refine Node.fits_of_leaves h.tree (c := p.course kit data) h.laid h.tidy (fun s => (h.slots s).mp)
    (fun q hq hw => ?_) fun q hq hw => ?_
  · obtain ⟨l, hl, hb⟩ := h.built.built q hq hw
    exact ⟨l, hl, hb.bucket⟩
  · obtain ⟨l, hl, hb⟩ := h.built.built q hq hw
    have hlaid := Outline.leaf_laid h.laid hl
    refine hb.fits h.tree none hlaid (fun j hj => ?_) (fun f s hs => ?_)
      (fun s hs => (h.slots s).mp (Node.mem_slots_of_part hq hs)) (h.tidy.parts _ q hq)
    · obtain ⟨⟨e, b⟩, hp, hl⟩ := h.mem_leaves.mp hl
      have hr := Outline.range_of_mem hl
      have hend := h.tree.stop_le hlaid.lt
      rw [hlaid.stop h.tree] at hend
      obtain ⟨hj₁, hj₂⟩ := hj
      refine ⟨Nat.lt_of_lt_of_le hj₂ hend, nofun, b, (List.of_mem_zip hp).2, ?_⟩
      rcases Nat.eq_or_lt_of_le (Nat.le_trans hr.1 hj₁) with he | hlt
      · exact .inl he.symm
      · exact .inr (((h.laid_of_mem hp).isBelow_iff h.tree).mpr ⟨hlt, Nat.lt_of_lt_of_le hj₂ hr.2⟩)
    · rw [Home] at hs
      split at hs
      · exact (h.slots s).mp (Node.mem_slots_of_place hs)
      · exact hs.elim

/-- **Over any document the root is right**, where what is true of each expression is what is made
    of it. -/
theorem means (h : p.Compiled kit es) :
    p.root.Means (p.course kit data) (p.scene kit es data d) (some d) := by
  refine Node.means_of_leaves (c := p.course kit data) h.tree (fun q hq hw => ?_) h.tidy scene_suits
    fun l hl => Outline.truth_leaf (c := p.course kit data) hl h.laid
  obtain ⟨l, hl, hb⟩ := h.built.built q hq hw
  exact ⟨l, hl, hb.bucket, hb.means h.tree (Outline.leaf_laid h.laid hl) (h.tidy.parts _ q hq)⟩

/-- What is true of an expression is what is made of it. -/
theorem truth_eq (h : p.Compiled kit es) {e : Expr} {b : Nat} (hp : (e, b) ∈ es.zip p.buckets) :
    (p.scene kit es data d).truth b = e.exact kit data (fun _ => none) Variable.root d := by
  rw [← exact_outline e]
  refine Outline.truth_eq (Tree.consistent_truth h.tree _) e.single_outline (h.laid_of_mem hp)
    fun l hl => ?_
  exact Outline.truth_leaf (c := p.course kit data) (h.mem_leaves.mpr ⟨_, hp, hl⟩) h.laid

/-- An expression rests on what the root marks. -/
theorem rests (h : p.Compiled kit es) : ∀ b ∈ p.buckets, p.tree.Rests (· ∈ p.root.buckets) b := by
  intro b hb
  obtain ⟨e, hp⟩ := h.expr_of_bucket hb
  exact Outline.rests e.single_outline (h.laid_of_mem hp) fun l hl =>
    h.built.covers.mem_iff.mpr (List.mem_map_of_mem (h.mem_leaves.mpr ⟨_, hp, hl⟩))

/-- Nothing that is marked stands above an expression. -/
theorem top (h : p.Compiled kit es) : ∀ b ∈ p.buckets, (p.course kit data).Top b := by
  intro b hb j hbelow
  rw [h.buckets] at hb
  obtain ⟨hkind, hno⟩ := glue_above h.tree h.laid hb (Nat.zero_le j) hbelow
  refine ⟨hkind, fun ⟨i, hi, hm⟩ => ?_⟩
  rw [h.buckets] at hi
  exact hno i hi hm

/-- A single expression has the first bucket. -/
theorem bucket_of_single (h : p.Compiled kit es) (hl : p.buckets.length ≤ 1) :
    ∀ b ∈ p.buckets, b = 0 := by
  rw [h.length_buckets] at hl
  intro b hb
  rw [h.buckets] at hb
  match es with
  | [] => cases hb
  | [_] => exact List.mem_singleton.mp hb
  | _ :: _ :: _ => exact absurd hl (by simp)

end Compiled

end Plan

end Sift
