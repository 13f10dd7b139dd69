import Sift.Proofs.Plan.Origin

/-!
# Parts that come to what they are made of

A part that is built of a leaf of an outline comes to what is made of the leaf
(`Part.Built.means`), if the slots that it reads hold what the fields are, which is what
`Scene.Suits` says. The slots of the scope that the part belongs to are filled by the end of its
node, and those of scopes further out have been before. While an array is read that loops run over,
the slots of its own scope are still empty, which is what `Expr.exact` says of such loops.
-/

namespace Sift

open Resolution
open Plan (commonPath)

/-! ## 1. Truth by outlines -/

namespace Outline

/-- The fields of variables that are bound outside of the outline. -/
def free : Outline → List Field
  | .test e => e.free
  | .loop _ var target body _ => target.free ++ body.free.filter (·.root ≠ var)
  | .not a => a.free
  | .and a b | .or a b | .both a b => a.free ++ b.free

theorem free_of_leaf {l : Nat × Outline} {f : Field} : ∀ {o : Outline} {i : Nat},
    l ∈ o.leaves i → f ∈ l.2.free → f ∈ o.free
  | .test _, _, hl, hf | .loop .., _, hl, hf => by
    rw [List.mem_singleton.mp hl] at hf
    exact hf
  | .not a, _, hl, hf => free_of_leaf (o := a) hl hf
  | .and a b, _, hl, hf | .or a b, _, hl, hf | .both a b, _, hl, hf => by
    rcases List.mem_append.mp hl with hl | hl
    · exact List.mem_append_left _ (free_of_leaf hl hf)
    · exact List.mem_append_right _ (free_of_leaf hl hf)

end Outline

mutual

/-- An outline has the free fields of its expression. -/
theorem Expr.free_outline : ∀ e : Expr, e.outline.free = e.free
  | .and es => free_outlineOfChain true es
  | .or es => free_outlineOfChain false es
  | .not e => Expr.free_outline e
  | .loop _ _ _ _ | .truth _ | .value _ | .field _ | .func _ _ | .present _ | .absent _
  | .relation .. | .like .. => rfl

theorem free_outlineOfChain (conjunction : Bool) : ∀ es : List Expr,
    (outlineOfChain conjunction es).free = Expr.freeOfAll es
  | [] => rfl
  | [e] => by
    rw [outlineOfChain, Expr.free_outline e, Expr.freeOfAll, Expr.freeOfAll, List.append_nil]
  | e :: e' :: rest => by
    rw [outlineOfChain, Expr.freeOfAll, ← Expr.free_outline e,
      ← free_outlineOfChain conjunction (e' :: rest)]
    · split
      · rfl
      · rfl
    · exact List.cons_ne_nil _ _

end

namespace Outline

/-- What is true of the leaf of a bucket, if it is one of several leaves. -/
def given (kit : Toolkit) (data : Bytes) (outer : Field → Option Doc) (cur : Variable) (d : Doc)
    (leaves : List (Nat × Outline)) (b : Nat) : Bool :=
  match leaves.find? (·.1 = b) with
  | some l => l.2.exact kit data outer cur d
  | none => false

/-- What is true of the buckets in the body of a loop at bucket `b`, for an element. -/
def inner (c : Course) (outer : Field → Option Doc) (cur : Variable) (d : Doc) (b : Nat) :
    Outline → Doc → Nat → Bool
  | .loop _ var (.field f) body inside, x =>
    c.tree.truth
      (given c.kit c.data (loopSeen outer cur d f var body) var x (inside.leaves (b + 1)))
  | _, _ => c.tree.truth fun _ => false

/-- What is true in the bodies of loops that are built of several leaves. -/
def innerOf (c : Course) (outer : Field → Option Doc) (cur : Variable) (d : Doc)
    (leaves : List (Nat × Outline)) (l : Loop) (x : Doc) : Nat → Bool :=
  match leaves.find? (·.1 = l.bucket) with
  | some (b, o) => o.inner c outer cur d b x
  | none => c.tree.truth fun _ => false

variable {c : Course} {outer : Field → Option Doc} {cur : Variable} {d : Doc}

theorem consistent_inner (hv : c.tree.Valid) {b : Nat} (o : Outline) (x : Doc) :
    c.tree.Consistent (o.inner c outer cur d b x) := by
  unfold inner
  split
  · exact Tree.consistent_truth hv _
  · exact Tree.consistent_truth hv _

theorem consistent_innerOf (hv : c.tree.Valid) (leaves : List (Nat × Outline)) (l : Loop)
    (x : Doc) : c.tree.Consistent (innerOf c outer cur d leaves l x) := by
  unfold innerOf
  split
  · exact consistent_inner hv _ x
  · exact Tree.consistent_truth hv _

/-- The leaf of a bucket. -/
theorem find_leaf {o : Outline} {i : Nat} {l : Nat × Outline} (hl : l ∈ o.leaves i) :
    (o.leaves i).find? (·.1 = l.1) = some l := by
  cases hf : (o.leaves i).find? (·.1 = l.1) with
  | none => exact absurd (decide_eq_true rfl) (List.find?_eq_none.mp hf l hl)
  | some l' =>
    have hb : l'.1 = l.1 := by simpa using List.find?_some hf
    rw [List.inj_on_of_nodup_map (o.leaves_nodup i) (List.mem_of_find?_eq_some hf) hl hb]

theorem innerOf_leaf {o : Outline} {i : Nat} {lf : Nat × Outline} (h : lf ∈ o.leaves i)
    {l : Loop} (hb : l.bucket = lf.1) (x : Doc) :
    innerOf c outer cur d (o.leaves i) l x = lf.2.inner c outer cur d lf.1 x := by
  rw [innerOf, hb, find_leaf h]

/-- The leaves of an outline have the truth that is given to them. -/
theorem truth_leaf {o : Outline} {i : Nat} {l : Nat × Outline} (hl : l ∈ o.leaves i)
    (hlaid : o.formula.Laid c.tree i) :
    c.tree.truth (given c.kit c.data outer cur d (o.leaves i)) l.1 =
      l.2.exact c.kit c.data outer cur d := by
  rw [Tree.truth_of_leaf (leaf_kind hlaid hl), given, find_leaf hl]

/-- So has the whole outline of a single expression. -/
theorem truth_outline (hv : c.tree.Valid) {o : Outline} {i : Nat} (hs : o.Single)
    (hlaid : o.formula.Laid c.tree i) :
    c.tree.truth (given c.kit c.data outer cur d (o.leaves i)) i =
      o.exact c.kit c.data outer cur d :=
  truth_eq (Tree.consistent_truth hv _) hs hlaid fun _ hl => truth_leaf hl hlaid

end Outline

/-! ## 2. Scenes of scopes -/

namespace Node

variable {n : Node} {q : Path} {part : Part} {l : Loop} {s : Nat}

theorem mem_slots_of_body (hp : (q, part) ∈ n.parts) (hl : part.loop? = some l)
    (hs : s ∈ l.body.slots) : s ∈ n.slots :=
  mem_slots_of_part hp (by rw [Part.slots_of_loop hl]; exact hs)

/-- What has a place in a node is not in the body of any of its loops. -/
theorem Tidy.body_apart (h : n.Tidy) (hp : (q, part) ∈ n.parts) (hl : part.loop? = some l)
    {path : Path} (hs : (s, path) ∈ n.places) : s ∉ l.body.slots := by
  rw [← Part.slots_of_loop hl]
  refine not_mem_of_disjoint (f := fun p : Path × Part => p.2.slots)
    (n.slots_perm.nodup_iff.mp h.slots) (mem_places_iff.mp hs) hp (fun he => ?_)
    (List.mem_singleton.mpr rfl)
  cases he
  cases hl

end Node

/-- **The slots are right for a scope**, in which `free` are the fields that are read: those of the
    scope itself lie in its node and are empty, and those further out hold what the fields are. -/
structure Scene.Suits (k : Scene) (Γ : Homes) (outer : Field → Option Doc) (free : List Field)
    (n : Node) : Prop where
  places : ∀ f s, f.root = Γ.cur → Home Γ f s → (s, f.path) ∈ n.places
  outer : ∀ f ∈ free, f.root ≠ Γ.cur → ∀ s, Home Γ f s → k.reads s ∧ k.held s = outer f
  apart : ∀ s, k.reads s → s ∉ n.slots
  empty : ∀ s ∈ n.slots, k.held s = none

namespace Scene

variable {k : Scene} {Γ : Homes} {outer : Field → Option Doc} {free : List Field} {n : Node}
  {d : Doc} {q : Path} {f : Field} {s : Nat}

theorem Suits.of_free {free' : List Field} (h : k.Suits Γ outer free n)
    (hf : ∀ f ∈ free', f ∈ free) : k.Suits Γ outer free' n :=
  { h with outer := fun f hm => h.outer f (hf f hm) }

theorem held_lateAt_of_place (ht : n.Tidy) {path : Path} (h : (s, path) ∈ n.places)
    (hq : q <+: path) : (k.lateAt n (some d) q).held s = d.late q path := by
  simp only [lateAt, n.path?_of_place ht h, if_pos hq]
  rfl

theorem held_lateAt_of_not_place (h : ∀ path, (s, path) ∉ n.places) :
    (k.lateAt n (some d) q).held s = k.held s := by
  cases hp : n.path? s with
  | some path => exact absurd (n.place_of_path? hp) (h path)
  | none => simp only [lateAt, hp]

theorem not_place (h : s ∉ n.slots) (path : Path) : (s, path) ∉ n.places :=
  fun hp => h (Node.mem_slots_of_place hp)

/-- Once the value of a node has been read, slots hold what is seen from there. -/
theorem Suits.late (h : k.Suits Γ outer free n) (ht : n.Tidy) (hf : f ∈ free)
    (hq : f.root = Γ.cur → q <+: f.path) (hs : Home Γ f s) :
    (k.lateAt n (some d) q).reads s ∧
      (k.lateAt n (some d) q).held s = seen outer Γ.cur d q f := by
  rw [seen]
  split
  · next hr =>
    have hp := h.places f s hr hs
    refine ⟨.inr ?_, held_lateAt_of_place ht hp (hq hr)⟩
    obtain ⟨r, he⟩ := hq hr
    exact ⟨r, by rw [he]; exact hp⟩
  · next hr =>
    obtain ⟨hread, hheld⟩ := h.outer f hf hr s hs
    exact ⟨.inl hread, (held_lateAt_of_not_place (not_place (h.apart s hread))).trans hheld⟩

/-- While the array at `q` is read, nothing is there of its scope. -/
theorem Suits.during (h : k.Suits Γ outer free n) (hf : f ∈ free)
    (hq : f.root = Γ.cur → f.path = q) (hs : Home Γ f s) :
    (k.duringAt n q).reads s ∧ (k.duringAt n q).held s = hidden outer Γ.cur f := by
  rw [hidden]
  split
  · next hr =>
    have hp := h.places f s hr hs
    exact ⟨.inr (hq hr ▸ hp), h.empty s (Node.mem_slots_of_place hp)⟩
  · next hr =>
    obtain ⟨hread, hheld⟩ := h.outer f hf hr s hs
    exact ⟨.inl hread, hheld⟩

/-- **The slots are right for the body of a loop**, if they are for what it reads further out. -/
theorem Suits.body {k' : Scene} {outer' : Field → Option Doc} {free' : List Field}
    {var : Variable} {part : Part} {l : Loop} (h : k.Suits Γ outer free n) (ht : n.Tidy)
    (hp : (q, part) ∈ n.parts) (hl : part.loop? = some l)
    (hreads : ∀ s, k'.reads s → k.reads s ∨ ∃ path, (s, path) ∈ n.places)
    (hheld : ∀ s, (∀ path, (s, path) ∉ n.places) → k'.held s = k.held s)
    (houter : ∀ f ∈ free', f.root ≠ var → ∀ s, Home Γ f s → k'.reads s ∧ k'.held s = outer' f) :
    k'.Suits ((var, l.body.places) :: Γ) outer' free' l.body where
  places f s hr hs := by
    rwa [Home, if_pos (show f.root = var from hr)] at hs
  outer f hf hr s hs := by
    rw [Home, if_neg (show f.root ≠ var from hr)] at hs
    exact houter f hf hr s hs
  apart s hs hm := by
    rcases hreads s hs with hs | ⟨path, hs⟩
    · exact h.apart s hs (Node.mem_slots_of_body hp hl hm)
    · exact ht.body_apart hp hl hs hm
  empty s hm := by
    rw [hheld s fun path hs => ht.body_apart hp hl hs hm]
    exact h.empty s (Node.mem_slots_of_body hp hl hm)

/-- They are while the array of a loop is read that runs over it. -/
theorem Suits.body_during {mode : LoopMode} {var : Variable} {body : Expr} {inside : Outline}
    {part : Part} {l : Loop} (h : k.Suits Γ outer (Outline.loop mode var (.field f) body inside).free
      n) (ht : n.Tidy) (hp : (f.path, part) ∈ n.parts) (hl : part.loop? = some l)
    (inline : IsInline Γ.cur f var body) :
    (k.duringAt n f.path).Suits ((var, l.body.places) :: Γ) (hidden outer Γ.cur) body.free
      l.body :=
  h.body ht hp hl (fun _ hr => hr.imp_right fun h => ⟨_, h⟩) (fun _ _ => rfl) fun _ hg hr _ hh =>
    h.during (List.mem_append_right _ (List.mem_filter.mpr ⟨hg, decide_eq_true hr⟩))
      (fun hcur => by rw [(inline.free_eq hg hcur).1]) hh

/-- They are once the value has been read that a loop waits for. -/
theorem Suits.body_late {mode : LoopMode} {var : Variable} {body : Expr} {inside : Outline}
    {part : Part} {l : Loop} (h : k.Suits Γ outer (Outline.loop mode var (.field f) body inside).free
      n) (ht : n.Tidy) (hp : (commonPath (loopPaths Γ.cur f var body), part) ∈ n.parts)
    (hl : part.loop? = some l) :
    (k.lateAt n (some d) (commonPath (loopPaths Γ.cur f var body))).Suits
      ((var, l.body.places) :: Γ)
      (seen outer Γ.cur d (commonPath (loopPaths Γ.cur f var body))) body.free l.body :=
  h.body ht hp hl (fun _ hr => hr.imp_right fun ⟨_, h⟩ => ⟨_, h⟩)
    (fun _ hno => held_lateAt_of_not_place hno) fun _ hg hr _ hh =>
    h.late ht (List.mem_append_right _ (List.mem_filter.mpr ⟨hg, decide_eq_true hr⟩))
      (loopPaths_isPrefix (.inr hg)) hh

/-- The body of a loop reads the same slots for each element. -/
theorem Suits.inside (h : k.Suits Γ outer free n) {truth : Nat → Bool} {l : Loop} {x : Doc} :
    (k.inside truth l x).Suits Γ outer free n :=
  ⟨h.places, h.outer, h.apart, h.empty⟩

end Scene

/-! ## 3. Parts of leaves -/

/-- What is the only path of a scope is that of each of its fields. -/
theorem Expr.path_of_single {cur : Variable} {e : Expr} {q : Path} {f : Field}
    (h : ownPaths cur e.fields [] = [q]) (hf : f ∈ e.free) (hr : f.root = cur) : f.path = q := by
  have hp : f.path ∈ ownPaths cur e.fields [] :=
    mem_ownPaths.mpr (.inr ⟨f, e.free_subset_fields f hf, hr, rfl⟩)
  rwa [h, List.mem_singleton] at hp

section Means

variable {c : Course} {k : Scene} {Γ : Homes} {outer : Field → Option Doc} {n : Node} {d : Doc}
  {q : Path} {check : Check} {e : Expr}

/-- A test at a field reads the slots of other scopes only. -/
theorem Check.Serves.reads_at (h : check.Serves c.kit Γ (some q) e) (hs : k.Suits Γ outer e.free n)
    (hq : ownPaths Γ.cur e.fields [] = [q]) : ∀ s ∈ check.slots, k.reads s := by
  intro s hm
  obtain ⟨f, hf, ha, hh⟩ := h.slots s hm
  exact (hs.outer f hf (fun hr => ha ⟨hr, by rw [Expr.path_of_single hq hf hr]⟩) s hh).1

/-- It gets at what is seen from there. -/
theorem Check.Serves.holds_at (h : check.Serves c.kit Γ (some q) e)
    (hs : k.Suits Γ outer e.free n) (hq : ownPaths Γ.cur e.fields [] = [q]) :
    check.holds c.kit.decimals (k.captured c.data) (Doc.valueOf c.data (d.follow q)) =
      e.testBy c.kit (fun f => Doc.valueOf c.data (seen outer Γ.cur d q f)) := by
  refine h.holds _ _ _ ⟨fun f hf ha => ?_, fun f hf ha s hh => ?_⟩
  · rw [seen, if_pos ha.1, Expr.path_of_single hq hf ha.1, Doc.late_self]
  · have hr : f.root ≠ Γ.cur := fun hr => ha ⟨hr, by rw [Expr.path_of_single hq hf hr]⟩
    rw [seen, if_neg hr, Scene.captured, (hs.outer f hf hr s hh).2]

/-- A test that waits reads the slots that are filled by then. -/
theorem Check.Serves.reads_late (h : check.Serves c.kit Γ none e) (hs : k.Suits Γ outer e.free n)
    (ht : n.Tidy) (hq : ∀ f ∈ e.free, f.root = Γ.cur → q <+: f.path) :
    ∀ s ∈ check.slots, (k.lateAt n (some d) q).reads s := by
  intro s hm
  obtain ⟨f, hf, -, hh⟩ := h.slots s hm
  exact (hs.late ht hf (hq f hf) hh).1

/-- It gets at what is seen from where it waits. -/
theorem Check.Serves.holds_late (h : check.Serves c.kit Γ none e) (hs : k.Suits Γ outer e.free n)
    (ht : n.Tidy) (hq : ∀ f ∈ e.free, f.root = Γ.cur → q <+: f.path) :
    check.holds c.kit.decimals ((k.lateAt n (some d) q).captured c.data) .missing =
      e.testBy c.kit (fun f => Doc.valueOf c.data (seen outer Γ.cur d q f)) := by
  refine h.holds _ _ _ ⟨fun f _ ha => absurd ha.2 nofun, fun f hf _ s hh => ?_⟩
  rw [Scene.captured, (hs.late ht hf (hq f hf) hh).2]

/-- What a loop comes to is what is made of it, over the same value. -/
theorem Outline.answer_eq (hv : c.tree.Valid) {l : Loop} {var : Variable} {f : Field}
    {body : Expr} {v? : Option Doc} {mode : LoopMode} (hmode : l.mode = mode)
    (hlaid : (Outline.loop mode var (.field f) body body.outline).formula.Laid c.tree l.bucket)
    (hv? : v? = seen outer Γ.cur d (commonPath (loopPaths Γ.cur f var body)) f)
    {inner : Doc → Nat → Bool} (hin : ∀ x, inner x =
      (Outline.loop mode var (.field f) body body.outline).inner c outer Γ.cur d l.bucket x) :
    (Outline.loop mode var (.field f) body body.outline).exact c.kit c.data outer Γ.cur d =
      l.answer c v? inner := by
  subst hmode hv?
  obtain ⟨-, -, hleft, -, hbody⟩ := hlaid
  rw [Outline.exact, Expr.exact, Loop.answer, hleft]
  refine LoopMode.over_congr fun _ _ x _ => ?_
  rw [hin x, Outline.inner, Outline.truth_outline hv body.single_outline hbody, exact_outline]

/-- **The part comes to what is made of the leaf**, wherever it is in a scope. -/
def Part.MeansAs (c : Course) (Γ : Homes) (q : Path) (part : Part) (b : Nat) (o : Outline) :
    Prop :=
  ∀ (k : Scene) (outer : Field → Option Doc) (n : Node) (d : Doc)
    (inner : Loop → Doc → Nat → Bool), (q, part) ∈ n.parts → n.Tidy →
    k.Suits Γ outer o.free n → k.truth b = o.exact c.kit c.data outer Γ.cur d →
    (∀ l, part.loop? = some l → ∀ x, inner l x = o.inner c outer Γ.cur d b x) →
    part.Means c k (some d) n inner q

/-- A node is right whose parts come to what is made of the leaves of an outline. -/
theorem Node.means_of_leaves (hv : c.tree.Valid) {o : Outline} {i : Nat}
    (hparts : ∀ p ∈ n.parts, p.2.Works → ∃ l ∈ o.leaves i,
      p.2.bucket? = some l.1 ∧ p.2.MeansAs c Γ p.1 l.1 l.2)
    (ht : n.Tidy) (hs : k.Suits Γ outer o.free n)
    (htruth : ∀ l ∈ o.leaves i, k.truth l.1 = l.2.exact c.kit c.data outer Γ.cur d) :
    n.Means c k (some d) := by
  refine Node.means_of_parts
    (show ∀ l x, c.tree.Consistent (Outline.innerOf c outer Γ.cur d (o.leaves i) l x) from
      Outline.consistent_innerOf hv _) n ht fun p hp => ?_
  by_cases hw : p.2.Works
  · obtain ⟨l, hl, hb, hm⟩ := hparts p hp hw
    refine hm k outer n d _ hp ht (hs.of_free fun f hf => Outline.free_of_leaf hl hf)
      (htruth l hl) fun l' hl' x => Outline.innerOf_leaf hl ?_ x
    rw [Part.bucket_of_loop hl'] at hb
    exact Option.some.inj hb
  · obtain ⟨s, hs⟩ := not_forall_not.mp hw
    rw [hs]
    trivial

/-- The body of a loop is right if its parts come to what is made of the leaves inside. -/
theorem Node.means_of_body (hv : c.tree.Valid) {mode : LoopMode} {var : Variable} {f : Field}
    {body : Expr} {b : Nat} {node : Node} {origin : Path × Part → Nat × Outline}
    (hlaid : (Outline.loop mode var (.field f) body body.outline).formula.Laid c.tree b)
    (ht : node.Tidy)
    (mem : ∀ p ∈ node.parts, p.2.Works → origin p ∈ body.outline.leaves (b + 1))
    (built : ∀ p ∈ node.parts, p.2.Works →
      p.2.Built c.kit ((var, node.places) :: Γ) p.1 (origin p).1 (origin p).2)
    (ih : ∀ p ∈ node.parts, p.2.Works → (origin p).2.formula.Laid c.tree (origin p).1 →
      p.2.Tidy → p.2.MeansAs c ((var, node.places) :: Γ) p.1 (origin p).1 (origin p).2)
    {x : Doc} (hs : k.Suits ((var, node.places) :: Γ) (loopSeen outer Γ.cur d f var body)
      body.free node)
    (hk : k.truth =
      (Outline.loop mode var (.field f) body body.outline).inner c outer Γ.cur d b x) :
    node.Means c k (some x) := by
  have hbody := hlaid.2.2.2.2
  refine Node.means_of_leaves hv (o := body.outline) (i := b + 1)
    (fun p hp hw => ⟨origin p, mem p hp hw, (built p hp hw).bucket, ?_⟩) ht
    (hs.of_free fun f hf => ?_) fun l hl => ?_
  · exact ih p hp hw (Outline.leaf_laid hbody (mem p hp hw)) (ht.parts _ p hp)
  · rwa [body.free_outline] at hf
  · rw [hk]
    exact Outline.truth_leaf hl hbody

/-- **A part that is built of a leaf comes to what is made of the leaf.** -/
theorem Part.Built.means (hv : c.tree.Valid) {Γ : Homes} {part : Part} {b : Nat} {o : Outline}
    (h : part.Built c.kit Γ q b o) : o.formula.Laid c.tree b → part.Tidy →
    part.MeansAs c Γ q b o := by
  induction h with
  | @test Γ path b check e isTest single serves =>
    intro _ _ k outer n d inner hp ht hs htruth _
    have hcommon : commonPath (ownPaths Γ.cur e.fields []) = path := by rw [single]; rfl
    rw [Outline.exact, Expr.exact_of_isTest isTest, hcommon] at htruth
    exact ⟨htruth.trans (serves.holds_at hs single).symm, serves.reads_at hs single⟩
  | @afterTest Γ b check e isTest _ serves =>
    intro _ _ k outer n d inner hp ht hs htruth _
    rw [Outline.exact, Expr.exact_of_isTest isTest] at htruth
    have hq {f : Field} (hf : f ∈ e.free) (hr : f.root = Γ.cur) :=
      ownPaths_isPrefix (e.free_subset_fields f hf) hr
    exact ⟨htruth.trans (serves.holds_late hs ht fun _ => hq).symm,
      serves.reads_late hs ht fun _ => hq⟩
  | @loop Γ b mode var f body node locals inline origin mem built covers ih =>
    intro hlaid hok k outer n d inner hp ht hs htruth hin
    have hq : commonPath (loopPaths Γ.cur f var body) = f.path := by rw [inline.2]; rfl
    have htarget : (some d).bind (Doc.follow f.path) =
        seen outer Γ.cur d (commonPath (loopPaths Γ.cur f var body)) f := by
      rw [hq, seen, if_pos inline.1, Doc.late_self]
      rfl
    refine ⟨htruth.trans (Outline.answer_eq (l := ⟨b, mode, .active, node, locals⟩) hv rfl hlaid
      htarget (hin _ rfl)), fun _ _ x _ => ?_⟩
    refine Node.means_of_body hv hlaid (hok _ rfl).2 mem built ih ?_ (hin _ rfl x)
    rw [loopSeen, if_pos inline]
    exact (hs.body_during ht hp rfl inline).inside
  | @afterLoop Γ b s mode var f body node locals late home origin mem built covers ih =>
    intro hlaid hok k outer n d inner hp ht hs htruth hin s' hs'
    cases hs'
    obtain ⟨hread, htarget⟩ := hs.late (d := d) ht (List.mem_append_left _ List.mem_cons_self)
      (loopPaths_isPrefix (.inl rfl)) home
    refine ⟨⟨htruth.trans (Outline.answer_eq (l := ⟨b, mode, .slot s, node, locals⟩) hv rfl hlaid
      htarget (hin _ rfl)), hread⟩, fun _ _ x _ => ?_⟩
    refine Node.means_of_body hv hlaid (hok _ rfl).2 mem built ih ?_ (hin _ rfl x)
    rw [loopSeen, if_neg late]
    exact (hs.body_late ht hp rfl).inside

end Means

end Sift
