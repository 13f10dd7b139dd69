import Sift.Proofs.Plan.Correspondence

/-!
# What slots hold when they are looked at

A scope of a plan is the root or the body of a loop (`Node.ScopeAt`), and the trail tells which
value it is bound to: the document, or the element that the loop has turned to last (`BoundTo`).
`Node.ExpectedAt` says what a slot holds that has been given to a path of a scope: what the path
leads to in the value that the scope is bound to. There is one exception. What is in a loop that
runs while its array is read may look for the array itself (`Node.ReadsOwn`). It finds nothing,
since the array has not been captured by then.

`Plan.Compiled.tells`: over a document that repeats no name, the root of a compiled plan looks at
slots that hold this, and the exception is met only if some loop has been written that reads the
field that it is over. The proof goes by the leaves that the parts of a scope are built of, and what
it carries into the body of a loop is `Scene.Hears`.
-/

namespace Sift

open Resolution
open Plan (commonPath)

/-! ## 1. Values in values -/

namespace Doc

/-- **A value is part of another**, or is the other. -/
inductive Inside (whole : Doc) : Doc → Prop
  | self : whole.Inside whole
  | item {x y : Doc} {items : List Doc} (inside : whole.Inside x) (array : x.items? = some items)
      (mem : y ∈ items) : whole.Inside y
  | member {x y : Doc} {name : String} (inside : whole.Inside x) (first : x.first name = some y) :
      whole.Inside y

namespace Inside

variable {whole : Doc}

/-- Paths lead to parts. -/
theorem follow : ∀ {path : Path} {x y : Doc}, whole.Inside x → x.follow path = some y →
    whole.Inside y
  | [], _, _, h, hy => by
    cases hy
    exact h
  | _ :: _, _, _, h, hy => by
    obtain ⟨m, hm, hy⟩ := Option.bind_eq_some_iff.mp hy
    exact (h.member hm).follow hy

/-- What repeats no name has no part that does. -/
theorem unique (hu : whole.Unique) {x : Doc} (h : whole.Inside x) : x.Unique := by
  induction h with
  | self => exact hu
  | @item x y items _ array mem ih =>
    cases x with
    | array _ _ _ =>
      cases array
      exact unique_of_items ih y mem
    | scalar _ | object _ _ _ => cases array
  | @member x y name _ first ih =>
    refine unique_of_follow (p := [name]) ih ?_
    rw [Doc.follow, first]
    rfl

end Inside

end Doc

/-- What fields are further out is part of the document. -/
def InsideFields (whole : Doc) (outer : Field → Option Doc) : Prop :=
  ∀ f x, outer f = some x → whole.Inside x

section Fields

variable {whole d : Doc} {outer : Field → Option Doc} {cur : Variable}

theorem insideFields_seen (hu : whole.Unique) {q : Path} (ho : InsideFields whole outer)
    (hd : whole.Inside d) : InsideFields whole (seen outer cur d q) := fun f x hx => by
  rw [seen] at hx
  split at hx
  · obtain ⟨y, hy, hx⟩ := Option.bind_eq_some_iff.mp hx
    have hy := hd.follow hy
    rw [Doc.reach_eq_follow (hy.unique hu)] at hx
    exact hy.follow hx
  · exact ho f x hx

theorem insideFields_hidden (ho : InsideFields whole outer) :
    InsideFields whole (hidden outer cur) := fun f x hx => by
  rw [hidden] at hx
  split at hx
  · cases hx
  · exact ho f x hx

end Fields

/-! ## 2. Outlines whose loops do not read their own fields -/

namespace Outline

/-- **No loop reads the field that it is over** in its body. -/
def Selfless : Outline → Prop
  | .test _ => True
  | .loop _ var target body inside =>
    (∀ f, target = .field f → f.root ≠ var → f ∉ body.free) ∧ inside.Selfless
  | .not a => a.Selfless
  | .and a b | .or a b | .both a b => a.Selfless ∧ b.Selfless

theorem selfless_of_leaf {l : Nat × Outline} : ∀ {o : Outline} {i : Nat}, l ∈ o.leaves i →
    o.Selfless → l.2.Selfless
  | .test _, _, hl, h | .loop .., _, hl, h => by
    rw [List.mem_singleton.mp hl]
    exact h
  | .not a, _, hl, h => selfless_of_leaf (o := a) hl h
  | .and a b, _, hl, h | .or a b, _, hl, h | .both a b, _, hl, h => by
    rcases List.mem_append.mp hl with hl | hl
    · exact selfless_of_leaf hl h.1
    · exact selfless_of_leaf hl h.2

end Outline

mutual

theorem Expr.selfless_outline : ∀ {e : Expr}, e.Selfless → e.outline.Selfless
  | .and _, h => selfless_outlineOfChain true h
  | .or _, h => selfless_outlineOfChain false h
  | .not e, h => Expr.selfless_outline (e := e) h
  | .loop _ _ _ _, h => ⟨h.1, Expr.selfless_outline h.2⟩
  | .truth _, _ | .value _, _ | .field _, _ | .func _ _, _ | .present _, _ | .absent _, _
  | .relation .., _ | .like .., _ => trivial

theorem selfless_outlineOfChain (conjunction : Bool) : ∀ {es : List Expr}, Expr.AllSelfless es →
    (outlineOfChain conjunction es).Selfless
  | [], _ => trivial
  | [_], h => Expr.selfless_outline h.1
  | e :: e' :: rest, h => by
    rw [outlineOfChain]
    · split
      · exact ⟨Expr.selfless_outline h.1, selfless_outlineOfChain conjunction h.2⟩
      · exact ⟨Expr.selfless_outline h.1, selfless_outlineOfChain conjunction h.2⟩
    · exact List.cons_ne_nil _ _

end

theorem selfless_outlineOfAll : ∀ {es : List Expr}, Expr.AllSelfless es →
    (outlineOfAll es).Selfless
  | [], _ => trivial
  | [_], h => Expr.selfless_outline h.1
  | _ :: _ :: _, h => ⟨Expr.selfless_outline h.1, selfless_outlineOfAll h.2⟩

/-! ## 3. Scopes -/

/-- **A scope of a plan**: the root, or the body of the loop at a bucket. -/
def Node.ScopeAt (root : Node) : Option Nat → Node → Prop
  | none, n => n = root
  | some b, n => ∃ l ∈ root.everyLoop, l.bucket = b ∧ l.body = n

/-- The loops in a scope have scopes themselves. -/
theorem Node.ScopeAt.body {root n : Node} {bucket? : Option Nat} {q : Path} {part : Part}
    {l : Loop} (h : root.ScopeAt bucket? n) (hp : (q, part) ∈ n.parts)
    (hl : part.loop? = some l) : root.ScopeAt (some l.bucket) l.body := by
  have hin : l ∈ n.everyLoop := mem_everyLoop.mpr ⟨_, hp, l, hl, .inl rfl⟩
  cases bucket? with
  | none =>
    cases h
    exact ⟨l, hin, rfl, rfl⟩
  | some b =>
    obtain ⟨outer, hm, -, rfl⟩ := h
    exact ⟨l, everyLoop_trans root hm hin, rfl, rfl⟩

/-- **What a scope is bound to**, as the trail tells: the document, or the element that the loop at
    the bucket has turned to last. -/
def BoundTo (whole : Doc) : (bucket? : Option Nat) → List Event → Doc → Prop
  | none, _, x => x = whole
  | some b, trail, x => whole.Inside x ∧ currentIn b trail = some x.opening

/-- The reader is in the body of a loop that runs while the array at the path is read. -/
def Node.ReadsOwn (t : Tree) (n : Node) (path : Path) (reader : Nat) : Prop :=
  ∃ l, (path, Part.loop l) ∈ n.parts ∧ t.isBelow l.bucket reader = true

/-- **What a slot holds that is given to a path of a scope**: what the path leads to in the value
    that the scope is bound to. To what is in a loop over the array at the path it is empty, which
    can only be where some loop reads its `own` array. -/
def Node.ExpectedAt (root : Node) (t : Tree) (whole : Doc) (own : Prop) : Told :=
  fun trail reader s found => ∃ bucket? n path x, root.ScopeAt bucket? n ∧ (s, path) ∈ n.places ∧
    BoundTo whole bucket? trail x ∧
      (¬ n.ReadsOwn t path reader → found = (x.follow path).map Doc.span) ∧
      (n.ReadsOwn t path reader →
        own ∧ found = none ∧ ((x.follow path).bind Doc.items?).isSome = true)

/-! ## 4. What readers may count on -/

/-- **The slots are right for the readers in a scope** that is bound to `d`: besides what
    `Scene.Suits` says, those further out are what is expected. -/
structure Scene.Hears (root : Node) (t : Tree) (whole : Doc) (own : Prop) (k : Scene) (Γ : Homes)
    (around : Field → Option Doc) (free : List Field) (bucket? : Option Nat) (n : Node) (d : Doc)
    (readers : Nat → Prop) : Prop extends k.Suits Γ around free n where
  scope : root.ScopeAt bucket? n
  inside : whole.Inside d
  bound : ∀ trail, k.now trail → BoundTo whole bucket? trail d
  fields : InsideFields whole around
  outside : ∀ f ∈ free, f.root ≠ Γ.cur → ∀ s, Home Γ f s → ∀ j, readers j →
    k.Tells (root.ExpectedAt t whole own) j s

namespace Scene.Hears

variable {root n : Node} {t : Tree} {whole d x : Doc} {own : Prop} {k k' : Scene} {Γ : Homes}
  {outer outer' : Field → Option Doc} {free free' : List Field} {bucket? : Option Nat}
  {readers readers' : Nat → Prop} {q : Path} {part : Part} {l : Loop} {f : Field} {j s : Nat}

theorem of_leaf (h : k.Hears root t whole own Γ outer free bucket? n d readers)
    (hf : ∀ f ∈ free', f ∈ free) (hr : ∀ j, readers' j → readers j) :
    k.Hears root t whole own Γ outer free' bucket? n d readers' where
  toSuits := h.toSuits.of_free hf
  scope := h.scope
  inside := h.inside
  bound := h.bound
  fields := h.fields
  outside f hm hcur s hs j hj := h.outside f (hf f hm) hcur s hs j (hr j hj)

/-- Once the value of a node has been read, its own slots hold what their paths lead to. -/
theorem tells_late (h : k.Hears root t whole own Γ outer free bucket? n d readers)
    (hu : whole.Unique) (ht : n.Tidy) (hf : f ∈ free) (hq : f.root = Γ.cur → q <+: f.path)
    (hs : Home Γ f s) (hj : readers j) (hno : ∀ path, ¬ n.ReadsOwn t path j) :
    (k.lateAt n (some d) q).Tells (root.ExpectedAt t whole own) j s := by
  intro trail hnow
  rw [(h.toSuits.late ht hf hq hs).2, seen]
  split
  · next hcur =>
    rw [Doc.late_eq_follow (h.inside.unique hu) (hq hcur)]
    exact ⟨bucket?, n, _, d, h.scope, h.places f s hcur hs, h.bound trail hnow, fun _ => rfl,
      fun hown => absurd hown (hno _)⟩
  · next hcur =>
    rw [← (h.outer f hf hcur s hs).2]
    exact h.outside f hf hcur s hs j hj trail hnow

/-- While an array is read, its slot is empty to what is in the loops over it. -/
theorem tells_during (h : k.Hears root t whole own Γ outer free bucket? n d readers)
    (hcur : f.root = Γ.cur) (hs : Home Γ f s) (hread : own) (hown : n.ReadsOwn t f.path j)
    (harray : ((d.follow f.path).bind Doc.items?).isSome = true) :
    (k.duringAt n q).Tells (root.ExpectedAt t whole own) j s := by
  intro trail hnow
  have hp := h.places f s hcur hs
  rw [show (k.duringAt n q).held s = none from h.empty s (Node.mem_slots_of_place hp)]
  exact ⟨bucket?, n, _, d, h.scope, hp, h.bound trail hnow, fun hno => absurd hown hno,
    fun _ => ⟨hread, rfl, harray⟩⟩

/-- The body of a loop that has turned to an element is a scope that is bound to the element. -/
theorem body {var : Variable} (h : k.Hears root t whole own Γ outer free bucket? n d readers)
    (hp : (q, part) ∈ n.parts) (hl : part.loop? = some l) (hx : whole.Inside x)
    (hs : k'.Suits ((var, l.body.places) :: Γ) outer' free' l.body)
    (hfields : InsideFields whole outer')
    (hout : ∀ f ∈ free', f.root ≠ var → ∀ s, Home Γ f s → ∀ j, readers' j →
      k'.Tells (root.ExpectedAt t whole own) j s) {truth : Nat → Bool} :
    (k'.inside truth l x).Hears root t whole own ((var, l.body.places) :: Γ) outer' free'
      (some l.bucket) l.body x readers' where
  toSuits := hs.inside
  scope := h.scope.body hp hl
  inside := hx
  bound _ hnow := ⟨hx, hnow.2⟩
  fields := hfields
  outside f hf hr s hh j hj trail hnow := by
    rw [Home, if_neg (show f.root ≠ var from hr)] at hh
    exact hout f hf hr s hh j hj trail hnow.1

variable {mode : LoopMode} {var : Variable} {body : Expr} {inside : Outline} {truth : Nat → Bool}

/-- It is one while the array is read, for those that the loop has in its body. -/
theorem body_during (h : k.Hears root t whole own Γ outer
      (Outline.loop mode var (.field f) body inside).free bucket? n d readers) (ht : n.Tidy)
    (hp : (f.path, part) ∈ n.parts) (hl : part.loop? = some l) (inline : IsInline Γ.cur f var body)
    (hx : whole.Inside x) (harray : ((d.follow f.path).bind Doc.items?).isSome = true)
    (hread : f.root ≠ var → f ∈ body.free → own)
    (hr : ∀ j, readers' j → readers j ∧ n.ReadsOwn t f.path j) :
    ((k.duringAt n f.path).inside truth l x).Hears root t whole own ((var, l.body.places) :: Γ)
      (hidden outer Γ.cur) body.free (some l.bucket) l.body x readers' := by
  refine h.body hp hl hx (h.toSuits.body_during ht hp hl inline) (insideFields_hidden h.fields)
    fun g hg hvar s hh j hj => ?_
  obtain ⟨hj, hown⟩ := hr j hj
  by_cases hcur : g.root = Γ.cur
  · obtain ⟨rfl, -⟩ := inline.free_eq hg hcur
    exact h.tells_during hcur hh (hread hvar hg) hown harray
  · exact h.outside g (List.mem_append_right _ (List.mem_filter.mpr ⟨hg, decide_eq_true hvar⟩))
      hcur s hh j hj

/-- It is one once the value has been read that the loop waits for. -/
theorem body_late (h : k.Hears root t whole own Γ outer
      (Outline.loop mode var (.field f) body inside).free bucket? n d readers) (hu : whole.Unique)
    (ht : n.Tidy) (hp : (commonPath (loopPaths Γ.cur f var body), part) ∈ n.parts)
    (hl : part.loop? = some l) (hx : whole.Inside x)
    (hr : ∀ j, readers' j → readers j ∧ ∀ path, ¬ n.ReadsOwn t path j) :
    ((k.lateAt n (some d) (commonPath (loopPaths Γ.cur f var body))).inside truth l x).Hears root t
      whole own ((var, l.body.places) :: Γ)
      (seen outer Γ.cur d (commonPath (loopPaths Γ.cur f var body))) body.free (some l.bucket)
      l.body x readers' := by
  refine h.body hp hl hx (h.toSuits.body_late ht hp hl) (insideFields_seen hu h.fields h.inside)
    fun g hg hvar s hh j hj => ?_
  obtain ⟨hj, hno⟩ := hr j hj
  exact h.tells_late hu ht (List.mem_append_right _ (List.mem_filter.mpr ⟨hg, decide_eq_true hvar⟩))
    (loopPaths_isPrefix (.inr hg)) hh hj hno

end Scene.Hears

/-! ## 5. Parts of leaves -/

/-- The leaf is a loop that runs while its array is read. -/
def Outline.Inline (cur : Variable) : Outline → Prop
  | .loop _ var (.field f) body _ => IsInline cur f var body
  | _ => False

section Tells

variable {kit : Toolkit} {root n : Node} {t : Tree} {whole d : Doc} {own : Prop} {k : Scene}
  {bucket? : Option Nat}
  {Γ : Homes} {outer : Field → Option Doc} {o : Outline} {i : Nat}

/-- **Only what is built of a loop that runs while its array is read looks for the array.** -/
theorem Node.Renders.inline (hv : t.Valid) (h : n.Renders kit t Γ o i) {leaf : Nat × Outline}
    (hleaf : leaf ∈ o.leaves i) {j : Nat} (hj : leaf.2.Covers leaf.1 j) {path : Path}
    (hown : n.ReadsOwn t path j) : leaf.2.Inline Γ.cur := by
  obtain ⟨l, hp, hbelow⟩ := hown
  obtain ⟨⟨b, leaf'⟩, hleaf', hb⟩ := h.built.built _ hp nofun
  have hbucket : l.bucket = b := Option.some.inj hb.bucket
  have hcovers : leaf'.Covers b j := by
    rw [hbucket, (Outline.leaf_laid h.laid hleaf').isBelow_iff hv] at hbelow
    exact ⟨Nat.le_of_lt hbelow.1, hbelow.2⟩
  rw [Outline.leaf_of_covers hleaf hleaf' hj hcovers]
  cases hb with
  | loop inline => exact inline

/-- **The part looks at slots that hold what is expected**, wherever it is in a scope. -/
def Part.TellsAs (root : Node) (t : Tree) (whole : Doc) (own : Prop) (Γ : Homes) (q : Path)
    (part : Part) (b : Nat) (o : Outline) : Prop :=
  ∀ (k : Scene) (outer : Field → Option Doc) (bucket? : Option Nat) (n : Node) (d : Doc),
    (q, part) ∈ n.parts → n.Tidy →
    k.Hears root t whole own Γ outer o.free bucket? n d (o.Covers b) →
    (∀ j, o.Covers b j → ∀ path, n.ReadsOwn t path j → o.Inline Γ.cur) →
    (¬ o.Selfless → own) → part.Tells (root.ExpectedAt t whole own) k (some d) n q

/-- A node does that is built of an outline if its parts do. -/
theorem Node.tells_of_leaves (hv : t.Valid) (h : n.Renders kit t Γ o i)
    (hparts : ∀ p ∈ n.parts, p.2.Works → ∃ l ∈ o.leaves i,
      p.2.TellsAs root t whole own Γ p.1 l.1 l.2)
    (hk : k.Hears root t whole own Γ outer o.free bucket? n d (o.Covers i))
    (hself : ¬ o.Selfless → own) : n.Tells (root.ExpectedAt t whole own) k (some d) := by
  refine Node.tells_of_parts n h.tidy fun p hp => ?_
  by_cases hw : p.2.Works
  · obtain ⟨l, hl, htells⟩ := hparts p hp hw
    have hr := Outline.range_of_mem hl
    refine htells k outer bucket? n d hp h.tidy
      (hk.of_leaf (fun f hf => Outline.free_of_leaf hl hf) fun j hj => ?_)
      (fun j hj path => h.inline hv hl hj) fun hno => hself (mt (Outline.selfless_of_leaf hl) hno)
    obtain ⟨hj₁, hj₂⟩ := hj
    exact ⟨by omega, by omega⟩
  · obtain ⟨s, hs⟩ := not_forall_not.mp hw
    rw [hs]
    trivial

/-- The body of a loop does if its parts do. -/
theorem Node.tells_of_body (hv : t.Valid) {mode : LoopMode} {var : Variable} {f : Field}
    {body : Expr} {b : Nat} {node : Node} {origin : Path × Part → Nat × Outline}
    (hlaid : (Outline.loop mode var (.field f) body body.outline).formula.Laid t b)
    (ht : node.Tidy)
    (mem : ∀ p ∈ node.parts, p.2.Works → origin p ∈ body.outline.leaves (b + 1))
    (built : ∀ p ∈ node.parts, p.2.Works →
      p.2.Built kit ((var, node.places) :: Γ) p.1 (origin p).1 (origin p).2)
    (covers : node.buckets.Perm ((body.outline.leaves (b + 1)).map (·.1)))
    (ih : ∀ p ∈ node.parts, p.2.Works → (origin p).2.formula.Laid t (origin p).1 → p.2.Tidy →
      p.2.TellsAs root t whole own ((var, node.places) :: Γ) p.1 (origin p).1 (origin p).2)
    {x : Doc} (hk : k.Hears root t whole own ((var, node.places) :: Γ) outer body.free bucket? node x
      (body.outline.Covers (b + 1)))
    (hself : ¬ (Outline.loop mode var (.field f) body body.outline).Selfless → own) :
    node.Tells (root.ExpectedAt t whole own) k (some x) := by
  have hbody := hlaid.2.2.2.2
  refine Node.tells_of_leaves hv
    ⟨hbody, ⟨fun p hp hw => ⟨origin p, mem p hp hw, built p hp hw⟩, covers⟩, ht⟩
    (fun p hp hw => ⟨origin p, mem p hp hw, ?_⟩) (hk.of_leaf (fun f hf => ?_) fun _ hj => hj)
    fun hno => hself fun h => hno h.2
  · exact ih p hp hw (Outline.leaf_laid hbody (mem p hp hw)) (ht.parts _ p hp)
  · rwa [body.free_outline] at hf

/-- **A part that is built of a leaf looks at slots that hold what is expected.** -/
theorem Part.Built.tells (hv : t.Valid) (hu : whole.Unique) {q : Path} {part : Part} {b : Nat}
    (h : part.Built kit Γ q b o) : o.formula.Laid t b → part.Tidy →
      part.TellsAs root t whole own Γ q b o := by
  induction h with
  | @test Γ path b check e isTest single serves =>
    intro _ _ k outer bucket? n d _ _ hk _ _ s hm
    -- the field that the test stands at has its value at hand
    obtain ⟨f, hf, ha, hh⟩ := serves.slots s hm
    refine hk.outside f hf (fun hcur => ha ⟨hcur, ?_⟩) s hh b (Outline.covers_self _ b)
    rw [Expr.path_of_single single hf hcur]
  | @afterTest Γ b check e isTest _ serves =>
    intro _ _ k outer bucket? n d _ ht hk hno _ s hm
    obtain ⟨f, hf, -, hh⟩ := serves.slots s hm
    have hb := Outline.covers_self (.test e) b
    exact hk.tells_late hu ht hf (ownPaths_isPrefix (e.free_subset_fields f hf)) hh hb
      fun path hown => hno b hb path hown
  | @loop Γ b mode var f body node locals inline origin mem built covers ih =>
    intro hlaid hok k outer bucket? n d hp ht hk _ hself items hitems x hx truth
    obtain ⟨y, hy, hi⟩ := Option.bind_eq_some_iff.mp hitems
    refine Node.tells_of_body hv hlaid (hok _ rfl).2 mem built covers ih
      (hk.body_during ht hp rfl inline ((hk.inside.follow hy).item hi hx)
        (Option.isSome_iff_exists.mpr ⟨items, hitems⟩)
        (fun hvar hf => hself fun h => h.1 f rfl hvar hf) fun j hj => ?_) hself
    obtain ⟨hlt, hj⟩ : b < j ∧
        (Outline.loop mode var (.field f) body body.outline).Covers b j := hj.of_inside
    exact ⟨hj, _, hp, (hlaid.isBelow_iff hv).mpr ⟨hlt, hj.2⟩⟩
  | @afterLoop Γ b s mode var f body node locals late home origin mem built covers ih =>
    intro hlaid hok k outer bucket? n d hp ht hk hno hself s' hs'
    cases hs'
    have hno {j : Nat} (hj : (Outline.loop mode var (.field f) body body.outline).Covers b j)
        (path : Path) : ¬ n.ReadsOwn t path j := fun hown => late (hno j hj path hown)
    have hf : f ∈ (Outline.loop mode var (.field f) body body.outline).free :=
      List.mem_append_left _ List.mem_cons_self
    have hprefix : f.root = Γ.cur → commonPath (loopPaths Γ.cur f var body) <+: f.path :=
      loopPaths_isPrefix (.inl rfl)
    have hb := Outline.covers_self (.loop mode var (.field f) body body.outline) b
    refine ⟨hk.tells_late hu ht hf hprefix home hb (hno hb), fun items hitems x hx truth => ?_⟩
    obtain ⟨y, hy, hi⟩ := Option.bind_eq_some_iff.mp hitems
    rw [(hk.toSuits.late ht hf hprefix home).2] at hy
    have hy := insideFields_seen hu hk.fields hk.inside f y hy
    refine Node.tells_of_body hv hlaid (hok _ rfl).2 mem built covers ih
      (hk.body_late hu ht hp rfl (hy.item hi hx) fun j hj => ?_) hself
    obtain ⟨-, hj⟩ : b < j ∧
        (Outline.loop mode var (.field f) body body.outline).Covers b j := hj.of_inside
    exact ⟨hj, hno hj⟩

end Tells

/-! ## 6. Compiled plans -/

/-- **Over a document that repeats no name the root looks at slots that hold what is expected.** -/
theorem Plan.Compiled.tells {kit : Toolkit} {p : Plan} {es : List Expr} {data : Bytes} {d : Doc}
    (h : p.Compiled kit es) (hu : d.Unique) :
    p.root.Tells (p.root.ExpectedAt p.tree d (¬ Expr.AllSelfless es)) (p.scene kit es data d)
      (some d) := by
  -- at the start nothing is further out that might be looked at
  have start : (p.scene kit es data d).Hears p.root p.tree d (¬ Expr.AllSelfless es)
      [(Variable.root, p.root.places)] (fun _ => none) (outlineOfAll es).free none p.root d
      ((outlineOfAll es).Covers 0) := by
    refine ⟨scene_suits, rfl, .self, fun _ _ => rfl, fun _ _ h => (by cases h),
      fun f _ hr s hs => ?_⟩
    rw [Home, if_neg (show f.root ≠ Variable.root from hr)] at hs
    exact hs.elim
  refine Node.tells_of_leaves h.tree h.renders (fun q hq hw => ?_) start
    fun hno hs => hno (selfless_outlineOfAll hs)
  obtain ⟨l, hl, hb⟩ := h.built.built q hq hw
  exact ⟨l, hl, hb.tells h.tree hu (Outline.leaf_laid h.laid hl) (h.tidy.parts _ q hq)⟩

end Sift
