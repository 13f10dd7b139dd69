import Sift.Standard
import Sift.Proofs.Plan.Compiled
import Sift.Proofs.Plan.Every
import Sift.Proofs.Plan.Formed

/-!
# Where tests and loops are placed

`Node.Placed` says of one scope of a plan where each test and each loop that is written in it is:

* a test that reads one field of the scope is at the node of the field;
* any other waits for the end of the deepest node that has all fields below it which the test reads
  of the scope, so that nothing later could see them all and be further down;
* a loop that waits does so at a node that has all fields below it which the loop reads of the
  scope, in its array or in its body, where a variable means what the innermost loop binds it to.

`compileAll_placed` says that this holds of every scope (`Plan.HasScope`) of every plan that
expressions are compiled into. The second rests on `commonPath` being the longest path that several
start with. The third holds although the placement looks at no field of a variable that anything in
the body binds: if that is the variable of the scope itself, no field is left to look at, and the
loop waits at the root.
-/

namespace Sift

open Plan (commonPath)

/-! ## 1. What is read of a scope -/

/-- One of the fields is at the path, in the scope of the variable. -/
def Reads (cur : Variable) (fields : List Field) (path : Path) : Prop :=
  ∃ f ∈ fields, f.root = cur ∧ f.path = path

/-- All that is read of the scope is at one path. -/
def ReadsOnly (cur : Variable) (fields : List Field) (path : Path) : Prop :=
  ∀ p, Reads cur fields p ↔ p = path

/-- All that is read of the scope is at or below the node at the end of a path. -/
def HoldsAll (cur : Variable) (fields : List Field) (q : Path) : Prop :=
  ∀ p, Reads cur fields p → q <+: p

/-- **The node at the end of a path is the deepest one** that has below it all that is read of the
    scope. If nothing is, it is the root. -/
structure Deepest (cur : Variable) (fields : List Field) (q : Path) : Prop where
  holds : HoldsAll cur fields q
  deepest : ∀ p, Reads cur fields p → ∀ q', HoldsAll cur fields q' → q' <+: q
  root : (∀ p, ¬ Reads cur fields p) → q = []

section Reads

variable {cur : Variable} {fields : List Field} {p q q' : Path}

theorem reads_iff_mem : Reads cur fields p ↔ p ∈ ownPaths cur fields [] := by
  rw [mem_ownPaths, or_iff_right List.not_mem_nil]
  exact Iff.rfl

theorem ReadsOnly.unique (h : ReadsOnly cur fields q) (h' : ReadsOnly cur fields q') : q = q' :=
  (h' q).mp ((h q).mpr rfl)

theorem Deepest.unique (h : Deepest cur fields q) (h' : Deepest cur fields q') : q = q' := by
  by_cases hread : ∃ p, Reads cur fields p
  · obtain ⟨p, hp⟩ := hread
    have hle := h'.deepest p hp q h.holds
    exact hle.eq_of_length_le (h.deepest p hp q' h'.holds).length_le
  · have hnone : ∀ p, ¬ Reads cur fields p := fun p hp => hread ⟨p, hp⟩
    rw [h.root hnone, h'.root hnone]

/-- **The common path leads to the deepest node.** -/
theorem deepest_commonPath (cur : Variable) (fields : List Field) :
    Deepest cur fields (commonPath (ownPaths cur fields [])) where
  holds p hp := commonPath_isPrefix (reads_iff_mem.mp hp)
  deepest p hp q' hq' :=
    isPrefix_commonPath (List.ne_nil_of_mem (reads_iff_mem.mp hp)) fun p hp =>
      hq' p (reads_iff_mem.mpr hp)
  root hnone := by
    have : ownPaths cur fields [] = [] :=
      List.eq_nil_iff_forall_not_mem.mpr fun p hp => hnone p (reads_iff_mem.mpr hp)
    rw [this]
    rfl

end Reads

section Loops

variable {cur var : Variable} {f : Field} {mode : LoopMode} {body : Expr}

/-- What a loop reads is its array, or free in its body. -/
theorem mem_free_loop {g : Field} (h : g ∈ (Expr.loop mode var (.field f) body).free) :
    g = f ∨ g ∈ body.free := by
  rw [Expr.free, Expr.free, List.mem_append, List.mem_singleton] at h
  exact h.imp_right fun h => (List.mem_filter.mp h).1

/-- **A loop that waits sees all that it reads of the scope**, whatever its body binds. -/
theorem holdsAll_loopPaths : HoldsAll cur (Expr.loop mode var (.field f) body).free
    (commonPath (loopPaths cur f var body)) := by
  rintro _ ⟨g, hg, hr, rfl⟩
  exact loopPaths_isPrefix (mem_free_loop hg) hr

/-- A loop that runs while its array is read, reads no other field of the scope. -/
theorem IsInline.readsOnly (h : IsInline cur f var body) :
    ReadsOnly cur (Expr.loop mode var (.field f) body).free f.path := by
  intro p
  constructor
  · rintro ⟨g, hg, hr, rfl⟩
    rcases mem_free_loop hg with rfl | hg
    · rfl
    · rw [(h.free_eq hg hr).1]
  · rintro rfl
    exact ⟨f, List.mem_append_left _ (List.mem_singleton.mpr rfl), h.1, rfl⟩

end Loops

/-! ## 2. Scopes -/

/-- **A scope of a plan**: the variable, the node, and the outline of what is written in the scope,
    which begins at a bucket. -/
inductive Plan.HasScope (p : Plan) (es : List Expr) : Variable → Node → Outline → Nat → Prop
  | root : p.HasScope es Variable.root p.root (outlineOfAll es) 0
  /-- The body of a loop, with the variable of the loop at that bucket. -/
  | body {cur var : Variable} {n : Node} {o inside : Outline} {i : Nat} {q : Path} {l : Loop}
      {target body : Expr} (scope : p.HasScope es cur n o i) (loop : l ∈ (n.get q).allLoops)
      (leaf : (l.bucket, .loop l.mode var target body inside) ∈ o.leaves i) :
      p.HasScope es var l.body inside (l.bucket + 1)

/-- **The tests and loops of a scope are where they should be.** -/
structure Node.Placed (cur : Variable) (n : Node) (o : Outline) (i : Nat) : Prop where
  /-- Each test and each loop is placed once, and nothing else is. -/
  buckets : n.buckets.Perm ((o.leaves i).map (·.1))
  /-- A test of one field of the scope is at the field. -/
  tests : ∀ b e, (b, .test e) ∈ o.leaves i → ∀ q,
    (∃ t ∈ (n.get q).tests, t.bucket = b) ↔ ReadsOnly cur e.fields q
  /-- Any other waits as far down as it can. -/
  afterTests : ∀ b e, (b, .test e) ∈ o.leaves i → ∀ q,
    (∃ t ∈ (n.get q).afterTests, t.bucket = b) ↔
      (∀ path, ¬ ReadsOnly cur e.fields path) ∧ Deepest cur e.fields q
  /-- Each loop is somewhere. -/
  allLoops : ∀ b mode var target body inside, (b, .loop mode var target body inside) ∈ o.leaves i →
    ∃ q, ∃ l ∈ (n.get q).allLoops, l.bucket = b
  /-- A loop at its array reads nothing else. -/
  loops : ∀ q, ∀ l ∈ (n.get q).loops, ∃ var target body,
    (l.bucket, .loop l.mode var target body body.outline) ∈ o.leaves i ∧
      ReadsOnly cur (Expr.loop l.mode var target body).free q
  /-- A loop that waits is above all that it reads. -/
  afterLoops : ∀ q, ∀ l ∈ (n.get q).afterLoops, ∃ var target body,
    (l.bucket, .loop l.mode var target body body.outline) ∈ o.leaves i ∧
      HoldsAll cur (Expr.loop l.mode var target body).free q

/-! ## 3. Parts and leaves -/

namespace Node.Renders

variable {kit : Toolkit} {t : Resolution.Tree} {Γ : Homes} {n : Node} {o leaf : Outline} {i b : Nat}
  {q : Path}
  {part : Part}

/-- A part with the bucket of a leaf is built of it. -/
theorem built_of_bucket (h : n.Renders kit t Γ o i) (hp : (q, part) ∈ n.parts)
    (hb : part.bucket? = some b) (hl : (b, leaf) ∈ o.leaves i) : part.Built kit Γ q b leaf := by
  have hworks : part.Works := Part.works_iff.mpr (Option.isSome_iff_exists.mpr ⟨b, hb⟩)
  obtain ⟨l, hl', hbuilt⟩ := h.built.built _ hp hworks
  have hbucket : l.1 = b := Option.some.inj (hbuilt.bucket.symm.trans hb)
  have : l = (b, leaf) := List.inj_on_of_nodup_map (o.leaves_nodup i) hl' hl hbucket
  subst this
  exact hbuilt

/-- Every leaf has a part that is built of it. -/
theorem part_of_leaf (h : n.Renders kit t Γ o i) (hl : (b, leaf) ∈ o.leaves i) :
    ∃ q part, (q, part) ∈ n.parts ∧ part.Built kit Γ q b leaf := by
  have hb : b ∈ n.buckets := h.built.covers.mem_iff.mpr (List.mem_map.mpr ⟨_, hl, rfl⟩)
  obtain ⟨⟨q, part⟩, hp, hb⟩ := Node.mem_buckets_iff.mp hb
  exact ⟨q, part, hp, h.built_of_bucket hp hb hl⟩

theorem mem_own_iff (h : n.Renders kit t Γ o i) : part ∈ (n.get q).own ↔ (q, part) ∈ n.parts :=
  h.tidy.mem_parts_iff.symm

/-- Where a test of one field is. -/
theorem tests_iff (h : n.Renders kit t Γ o i) {e : Expr} (hl : (b, .test e) ∈ o.leaves i) :
    (∃ t ∈ (n.get q).tests, t.bucket = b) ↔ ReadsOnly Γ.cur e.fields q := by
  constructor
  · rintro ⟨t, ht, hb⟩
    have hp : (q, .test t) ∈ n.parts := h.mem_own_iff.mp (Node.mem_own.mpr ht)
    cases h.built_of_bucket hp (congrArg some hb) hl with
    | test _ single => exact ownPaths_eq_singleton.mp single
  · intro honly
    obtain ⟨q', part, hp, hbuilt⟩ := h.part_of_leaf hl
    cases hbuilt with
    | test _ single =>
      rw [honly.unique (ownPaths_eq_singleton.mp single)]
      exact ⟨_, Node.mem_own.mp (h.mem_own_iff.mpr hp), rfl⟩
    | afterTest _ several => exact absurd (ownPaths_eq_singleton.mpr honly) (several q)

/-- Where any other test is. -/
theorem afterTests_iff (h : n.Renders kit t Γ o i) {e : Expr} (hl : (b, .test e) ∈ o.leaves i) :
    (∃ t ∈ (n.get q).afterTests, t.bucket = b) ↔
      (∀ path, ¬ ReadsOnly Γ.cur e.fields path) ∧ Deepest Γ.cur e.fields q := by
  constructor
  · rintro ⟨t, ht, hb⟩
    have hp : (q, .afterTest t) ∈ n.parts := h.mem_own_iff.mp (Node.mem_own.mpr ht)
    cases h.built_of_bucket hp (congrArg some hb) hl with
    | afterTest _ several =>
      exact ⟨fun path honly => several path (ownPaths_eq_singleton.mpr honly),
        deepest_commonPath _ _⟩
  · rintro ⟨hseveral, hdeepest⟩
    obtain ⟨q', part, hp, hbuilt⟩ := h.part_of_leaf hl
    cases hbuilt with
    | test _ single => exact absurd (ownPaths_eq_singleton.mp single) (hseveral q')
    | afterTest _ several =>
      rw [hdeepest.unique (deepest_commonPath _ _)]
      exact ⟨_, Node.mem_own.mp (h.mem_own_iff.mpr hp), rfl⟩

/-- **A node that is built of an outline has everything where it should be.** -/
theorem placed (h : n.Renders kit t Γ o i) : n.Placed Γ.cur o i where
  buckets := h.built.covers
  tests _ _ hl _ := h.tests_iff hl
  afterTests _ _ hl _ := h.afterTests_iff hl
  allLoops b mode var target body inside hl := by
    obtain ⟨q, part, hp, hbuilt⟩ := h.part_of_leaf hl
    have hown := h.mem_own_iff.mpr hp
    cases hbuilt with
    | loop => exact ⟨_, _, List.mem_append_left _ (Node.mem_own.mp hown), rfl⟩
    | afterLoop => exact ⟨_, _, List.mem_append_right _ (Node.mem_own.mp hown), rfl⟩
  loops q l hl := by
    have hp : (q, .loop l) ∈ n.parts := h.mem_own_iff.mp (Node.mem_own.mpr hl)
    obtain ⟨⟨b, leaf⟩, hleaf, hbuilt⟩ := h.built.built _ hp nofun
    cases hbuilt with
    | loop hinline => exact ⟨_, _, _, hleaf, hinline.readsOnly⟩
  afterLoops q l hl := by
    have hp : (q, .afterLoop l) ∈ n.parts := h.mem_own_iff.mp (Node.mem_own.mpr hl)
    obtain ⟨⟨b, leaf⟩, hleaf, hbuilt⟩ := h.built.built _ hp nofun
    cases hbuilt with
    | afterLoop => exact ⟨_, _, _, hleaf, holdsAll_loopPaths⟩

/-- The body of a loop that is written in a scope is built of the outline inside. -/
theorem inside (h : n.Renders kit t Γ o i) {l : Loop} (hl : l ∈ (n.get q).allLoops) {var : Variable}
    {target body : Expr} {within : Outline}
    (hleaf : (l.bucket, .loop l.mode var target body within) ∈ o.leaves i) :
    l.body.Renders kit t ((var, l.body.places) :: Γ) within (l.bucket + 1) := by
  obtain ⟨part, hpart, hloop⟩ : ∃ part ∈ (n.get q).own, part.loop? = some l := by
    rcases List.mem_append.mp hl with hl | hl
    · exact ⟨.loop l, Node.mem_own.mpr hl, rfl⟩
    · exact ⟨.afterLoop l, Node.mem_own.mpr hl, rfl⟩
  obtain ⟨var', f, body', hleaf', hbody⟩ := h.body (h.mem_own_iff.mp hpart) hloop
  cases List.inj_on_of_nodup_map (o.leaves_nodup i) hleaf hleaf' rfl
  exact hbody

end Node.Renders

/-! ## 4. Compiled plans -/

namespace Plan

variable {kit : Toolkit} {p : Plan} {es : List Expr}

/-- Every scope of a compiled plan is built of its outline. -/
theorem HasScope.renders (h : p.Compiled kit es) {cur : Variable} {n : Node} {o : Outline} {i : Nat}
    (hs : p.HasScope es cur n o i) : ∃ Γ : Homes, Γ.cur = cur ∧ n.Renders kit p.tree Γ o i := by
  induction hs with
  | root => exact ⟨[(Variable.root, p.root.places)], rfl, h.laid, h.built, h.tidy⟩
  | body _ loop leaf ih =>
    obtain ⟨Γ, -, hn⟩ := ih
    exact ⟨_, rfl, hn.inside loop leaf⟩

/-- **Everything in a compiled plan is where it should be**, in every scope. -/
theorem compileAll_placed (kit : Toolkit) (es : List Expr) (p : Plan)
    (h : compileAll kit es = .ok p) : ∀ cur n o i, p.HasScope es cur n o i → n.Placed cur o i := by
  intro cur n o i hs
  obtain ⟨Γ, rfl, hn⟩ := hs.renders (compiled_of_compileAll h)
  exact hn.placed

/-- A loop whose body reads another field of the document, and binds the variable of the document
    to the elements of an array of its own. -/
def shadowing : Expr :=
  .loop .any 1 (.field ⟨Variable.root, ["order", "items"]⟩)
    (.and [.relation .equals (.field ⟨1, ["id"]⟩) (.field ⟨Variable.root, ["order", "id"]⟩),
      .loop .every Variable.root (.field ⟨1, ["tags"]⟩) (.field ⟨Variable.root, ["on"]⟩)])

theorem compileAll_placed_shadowing : ∃ p, compileAll .standard [shadowing] = .ok p ∧
    p.root.Placed Variable.root (outlineOfAll [shadowing]) 0 := by
  obtain ⟨p, hp⟩ := (compileAll_isOk .standard [shadowing]).mpr ⟨List.cons_ne_nil _ _, by
    simp [Expr.AllFormed, shadowing, Expr.Formed, Expr.IsOperand]⟩
  exact ⟨p, hp, compileAll_placed _ _ p hp _ _ _ _ .root⟩

end Plan

end Sift
