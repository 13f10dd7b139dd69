import Sift.Proofs.Meaning.Plain

/-!
# What a plan makes of an expression

`Expr.exact` is the meaning that a plan gives to an expression, on every document. It differs from
`Expr.holds` in what the fields are, and that depends on where a test or a loop is placed:

* the paths of a scope that a test or a loop reads are followed together as far as they are the
  same, and from there each leads where it leads first (`Doc.late`);
* a loop that runs while its array is read sees nothing of the array's scope.

`exact_eq_holds`: where no name is repeated and no loop reads the field that it is over, there is
no difference.
-/

namespace Sift

open Plan (commonPath sharedPath)

/-! ## 1. Paths of one scope -/

instance : LawfulBEq Path := inferInstance

/-- The paths of the fields of one variable, each once, after those in `found`. -/
def ownPaths (cur : Variable) : List Field → (found : List Path) → List Path
  | [], found => found
  | f :: rest, found =>
    if f.root = cur ∧ f.path ∉ found then ownPaths cur rest (found ++ [f.path])
    else ownPaths cur rest found

theorem mem_ownPaths {cur : Variable} {p : Path} : ∀ {fields : List Field} {found : List Path},
    p ∈ ownPaths cur fields found ↔ p ∈ found ∨ ∃ f ∈ fields, f.root = cur ∧ f.path = p
  | [], found => by simp [ownPaths]
  | f :: rest, found => by
    rw [ownPaths]
    simp only [List.mem_cons, exists_eq_or_imp]
    split
    · next h =>
      rw [mem_ownPaths, List.mem_append, List.mem_singleton, or_assoc, eq_comm (a := p)]
      simp only [h.1, true_and]
    · next h =>
      rw [mem_ownPaths]
      constructor
      · exact Or.imp_right .inr
      · rintro (h' | ⟨hr, rfl⟩ | h')
        · exact .inl h'
        · exact .inl (Decidable.not_not.mp fun hn => h ⟨hr, hn⟩)
        · exact .inr h'

/-- No path comes twice. -/
theorem nodup_ownPaths {cur : Variable} : ∀ {fields : List Field} {found : List Path},
    found.Nodup → (ownPaths cur fields found).Nodup
  | [], _, h => h
  | f :: rest, found, h => by
    rw [ownPaths]
    split
    · next hf =>
      refine nodup_ownPaths (List.nodup_append.mpr ⟨h, List.pairwise_singleton _ _, ?_⟩)
      rintro p hp _ hm rfl
      exact hf.2 (List.mem_singleton.mp hm ▸ hp)
    · exact nodup_ownPaths h

/-- One path is all there is if it is the path of every field. -/
theorem ownPaths_eq_singleton {cur : Variable} {fields : List Field} {path : Path} :
    ownPaths cur fields [] = [path] ↔ ∀ p, (∃ f ∈ fields, f.root = cur ∧ f.path = p) ↔ p = path := by
  have hmem (p : Path) : (∃ f ∈ fields, f.root = cur ∧ f.path = p) ↔ p ∈ ownPaths cur fields [] := by
    rw [mem_ownPaths, or_iff_right List.not_mem_nil]
  simp only [hmem]
  refine ⟨fun h p => by rw [h, List.mem_singleton], fun h => ?_⟩
  refine List.perm_singleton.mp ((List.perm_ext_iff_of_nodup (nodup_ownPaths List.nodup_nil)
    (List.pairwise_singleton _ path)).mpr fun p => ?_)
  rw [h p, List.mem_singleton]

theorem sharedPath_prefix_left : ∀ p q : Path, sharedPath p q <+: p
  | [], _ => by simp [sharedPath]
  | _ :: _, [] => by simp [sharedPath]
  | a :: p, b :: q => by
    rw [sharedPath]
    split
    · exact List.cons_prefix_cons.mpr ⟨rfl, sharedPath_prefix_left p q⟩
    · exact List.nil_prefix

theorem sharedPath_prefix_right : ∀ p q : Path, sharedPath p q <+: q
  | [], _ => by simp [sharedPath]
  | _ :: _, [] => by simp [sharedPath]
  | a :: p, b :: q => by
    rw [sharedPath]
    split
    · next h => exact List.cons_prefix_cons.mpr ⟨h, sharedPath_prefix_right p q⟩
    · exact List.nil_prefix

/-- What paths share is shared by each. -/
theorem commonPath_isPrefix {paths : List Path} {p : Path} (h : p ∈ paths) :
    commonPath paths <+: p := by
  have fold : ∀ (rest : List Path) (first : Path),
      rest.foldl sharedPath first <+: first ∧
        ∀ p ∈ rest, rest.foldl sharedPath first <+: p := by
    intro rest
    induction rest with
    | nil => exact fun first => ⟨List.prefix_refl _, by simp⟩
    | cons q rest ih =>
      intro first
      obtain ⟨hfirst, hrest⟩ := ih (sharedPath first q)
      refine ⟨hfirst.trans (sharedPath_prefix_left first q), fun p hp => ?_⟩
      rcases List.mem_cons.mp hp with rfl | hp
      · exact hfirst.trans (sharedPath_prefix_right first p)
      · exact hrest p hp
  cases paths with
  | nil => cases h
  | cons first rest =>
    rcases List.mem_cons.mp h with rfl | h
    · exact (fold rest p).1
    · exact (fold rest first).2 p h

/-- A path that two paths start with, they share. -/
theorem isPrefix_sharedPath : ∀ {q p p' : Path}, q <+: p → q <+: p' → q <+: sharedPath p p'
  | [], _, _, _, _ => List.nil_prefix
  | name :: q, p, p', h, h' => by
    obtain ⟨r, rfl⟩ := h
    obtain ⟨r', rfl⟩ := h'
    rw [List.cons_append, List.cons_append, sharedPath, if_pos rfl]
    exact List.cons_prefix_cons.mpr
      ⟨rfl, isPrefix_sharedPath (List.prefix_append q r) (List.prefix_append q r')⟩

/-- **What paths share is the longest path that all of them start with.** -/
theorem isPrefix_commonPath {q : Path} {paths : List Path} (hne : paths ≠ [])
    (h : ∀ p ∈ paths, q <+: p) : q <+: commonPath paths := by
  have fold : ∀ (rest : List Path) (first : Path), q <+: first → (∀ p ∈ rest, q <+: p) →
      q <+: rest.foldl sharedPath first := by
    intro rest
    induction rest with
    | nil => exact fun first hfirst _ => hfirst
    | cons p rest ih =>
      intro first hfirst hrest
      exact ih _ (isPrefix_sharedPath hfirst (hrest p List.mem_cons_self))
        fun p' hp' => hrest p' (List.mem_cons_of_mem _ hp')
  cases paths with
  | nil => exact absurd rfl hne
  | cons first rest =>
    exact fold rest first (h first List.mem_cons_self) fun p hp => h p (List.mem_cons_of_mem _ hp)

/-- The paths that the placement of a loop looks at: those of its array and its body, of variables
    that nothing in the body binds. -/
def loopPaths (cur : Variable) (f : Field) (var : Variable) (body : Expr) : List Path :=
  ownPaths cur ((f :: body.fields).filter (·.root ∉ body.bound ++ [var])) []

theorem loopPaths_of_bound {cur var : Variable} {f : Field} {body : Expr}
    (h : cur ∈ body.bound ++ [var]) : loopPaths cur f var body = [] := by
  rw [List.eq_nil_iff_forall_not_mem]
  intro p hp
  obtain ⟨g, hg, hr, -⟩ := (mem_ownPaths.mp hp).resolve_left List.not_mem_nil
  have := (List.mem_filter.mp hg).2
  rw [hr] at this
  exact absurd h (of_decide_eq_true this)

/-- The fields of the scope that a loop reads lie where its placement looks, if it looks. -/
theorem mem_loopPaths {cur var : Variable} {f g : Field} {body : Expr}
    (h : cur ∉ body.bound ++ [var]) (hg : g = f ∨ g ∈ body.free) (hr : g.root = cur) :
    g.path ∈ loopPaths cur f var body := by
  refine mem_ownPaths.mpr (.inr ⟨g, List.mem_filter.mpr ⟨List.mem_cons.mpr ?_, ?_⟩, hr, rfl⟩)
  · exact hg.imp_right (body.free_subset_fields g)
  · rw [hr]
    exact decide_eq_true h

/-- **What a loop reads of its scope starts with what the paths of its placement share.** -/
theorem loopPaths_isPrefix {cur var : Variable} {f g : Field} {body : Expr}
    (hg : g = f ∨ g ∈ body.free) (hr : g.root = cur) :
    commonPath (loopPaths cur f var body) <+: g.path := by
  by_cases h : cur ∈ body.bound ++ [var]
  · rw [loopPaths_of_bound h]
    exact List.nil_prefix
  · exact commonPath_isPrefix (mem_loopPaths h hg hr)

/-- What a test reads of its scope does so too. -/
theorem ownPaths_isPrefix {cur : Variable} {fields : List Field} {f : Field} (hf : f ∈ fields)
    (hr : f.root = cur) : commonPath (ownPaths cur fields []) <+: f.path :=
  commonPath_isPrefix (mem_ownPaths.mpr (.inr ⟨f, hf, hr, rfl⟩))

/-- Whether a loop runs while its array is read. -/
def IsInline (cur : Variable) (f : Field) (var : Variable) (body : Expr) : Prop :=
  f.root = cur ∧ loopPaths cur f var body = [f.path]

instance (cur : Variable) (f : Field) (var : Variable) (body : Expr) :
    Decidable (IsInline cur f var body) := inferInstanceAs (Decidable (_ ∧ _))

/-- A loop that runs while its array is read reads no other field of its scope. -/
theorem IsInline.free_eq {cur var : Variable} {f g : Field} {body : Expr}
    (h : IsInline cur f var body) (hg : g ∈ body.free) (hr : g.root = cur) :
    g = f ∧ g.root ≠ var := by
  have hc : cur ∉ body.bound ++ [var] := fun hc => by
    have := h.2
    rw [loopPaths_of_bound hc] at this
    cases this
  have hp := mem_loopPaths (f := f) hc (.inr hg) hr
  rw [h.2, List.mem_singleton] at hp
  refine ⟨?_, fun hv => hc ?_⟩
  · cases f
    cases g
    cases hp
    cases h.1
    cases hr
    rfl
  · rw [← hr, hv]
    exact List.mem_append_right _ (List.mem_singleton.mpr rfl)

/-! ## 2. What is seen of a scope -/

/-- What fields are at the end of the value that the path `q` leads to, in the scope of `d`. -/
def seen (outer : Field → Option Doc) (cur : Variable) (d : Doc) (q : Path) :
    Field → Option Doc :=
  fun f => if f.root = cur then d.late q f.path else outer f

/-- What fields are while a value of the scope is read. -/
def hidden (outer : Field → Option Doc) (cur : Variable) : Field → Option Doc :=
  fun f => if f.root = cur then none else outer f

/-- What a loop over the field `f` sees of the scope that it stands in. -/
def loopSeen (outer : Field → Option Doc) (cur : Variable) (d : Doc) (f : Field) (var : Variable)
    (body : Expr) : Field → Option Doc :=
  if IsInline cur f var body then hidden outer cur
  else seen outer cur d (commonPath (loopPaths cur f var body))

namespace Expr

mutual

/-- **What a plan makes of an expression** in the scope of `cur`, which is bound to `d`, where
    `outer` tells what the fields of other variables are. -/
def exact (kit : Toolkit) (data : Bytes) (outer : Field → Option Doc) (cur : Variable) (d : Doc) :
    Expr → Bool
  | .and es => exactAll kit data outer cur d es
  | .or es => exactAny kit data outer cur d es
  | .not e => !e.exact kit data outer cur d
  | .loop mode var target body =>
    match target with
    | .field f =>
      mode.over ((seen outer cur d (commonPath (loopPaths cur f var body)) f).bind Doc.items?)
        fun x => body.exact kit data (loopSeen outer cur d f var body) var x
    | _ => false
  | e => e.testBy kit fun f =>
      Doc.valueOf data (seen outer cur d (commonPath (ownPaths cur e.fields [])) f)

/-- All of several expressions hold. -/
def exactAll (kit : Toolkit) (data : Bytes) (outer : Field → Option Doc) (cur : Variable)
    (d : Doc) : List Expr → Bool
  | [] => true
  | e :: rest => e.exact kit data outer cur d && exactAll kit data outer cur d rest

/-- Some of several expressions holds. -/
def exactAny (kit : Toolkit) (data : Bytes) (outer : Field → Option Doc) (cur : Variable)
    (d : Doc) : List Expr → Bool
  | [] => false
  | e :: rest => e.exact kit data outer cur d || exactAny kit data outer cur d rest

end

theorem exact_of_isTest {kit : Toolkit} {data : Bytes} {outer : Field → Option Doc}
    {cur : Variable} {d : Doc} {e : Expr} (h : e.isTest = true) :
    e.exact kit data outer cur d = e.testBy kit fun f =>
      Doc.valueOf data (seen outer cur d (commonPath (ownPaths cur e.fields [])) f) := by
  cases e with
  | and _ | or _ | not _ | loop _ _ _ _ => cases h
  | _ => rfl

end Expr

/-! ## 3. Where there is no difference -/

section Unique

variable {kit : Toolkit} {data : Bytes} {outer R : Field → Option Doc} {cur : Variable} {d : Doc}

/-- Nothing that a field may be has a repeated name. -/
def UniqueFields (outer : Field → Option Doc) : Prop := ∀ f x, outer f = some x → x.Unique

theorem uniqueFields_seen {q : Path} (ho : UniqueFields outer) (hd : d.Unique) :
    UniqueFields (seen outer cur d q) := fun f x hx => by
  rw [seen] at hx
  split at hx
  · obtain ⟨y, hy, hx⟩ := Option.bind_eq_some_iff.mp hx
    have hu := Doc.unique_of_follow hd hy
    rw [Doc.reach_eq_follow hu] at hx
    exact Doc.unique_of_follow hu hx
  · exact ho f x hx

theorem uniqueFields_loopSeen {f : Field} {var : Variable} {body : Expr} (ho : UniqueFields outer)
    (hd : d.Unique) : UniqueFields (loopSeen outer cur d f var body) := by
  rw [loopSeen]
  split
  · intro g x hx
    rw [hidden] at hx
    split at hx
    · cases hx
    · exact ho g x hx
  · exact uniqueFields_seen ho hd

/-- What is seen of a scope is what is there, as far as the paths start where one looks. -/
theorem seen_eq {q : Path} {f : Field} (hd : d.Unique) (hq : f.root = cur → q <+: f.path)
    (hR : R f = if f.root = cur then d.follow f.path else outer f) :
    seen outer cur d q f = R f := by
  rw [seen, hR]
  split
  · next h => exact Doc.late_eq_follow hd (hq h)
  · rfl

namespace Expr

/-- The fields that `R` tells are those of `d` and those outside of its scope. -/
def Agree (R outer : Field → Option Doc) (cur : Variable) (d : Doc) (fields : List Field) : Prop :=
  ∀ f ∈ fields, R f = if f.root = cur then d.follow f.path else outer f

theorem exact_test {e : Expr} (h : e.isTest = true) (hd : d.Unique)
    (hR : Agree R outer cur d e.free) : e.exact kit data outer cur d = e.holds kit data R := by
  rw [exact_of_isTest h, holds_of_isTest h]
  refine testBy_congr fun f hf => congrArg _ ?_
  exact seen_eq hd (ownPaths_isPrefix (e.free_subset_fields f hf)) (hR f hf)

mutual

/-- **Where no name is repeated and no loop reads the field that it is over**, a plan makes of an
    expression what it means. -/
theorem exact_eq_holds : ∀ {e : Expr} {outer R : Field → Option Doc} {cur : Variable} {d : Doc},
    e.Selfless → UniqueFields outer → d.Unique → Agree R outer cur d e.free →
    e.exact kit data outer cur d = e.holds kit data R
  | .and es, _, _, _, _, hs, ho, hd, hR => exactAll_eq_holdAll hs ho hd hR
  | .or es, _, _, _, _, hs, ho, hd, hR => exactAny_eq_holdAny hs ho hd hR
  | .not e, _, _, _, _, hs, ho, hd, hR => congrArg (!·) (exact_eq_holds hs ho hd hR)
  | .loop mode var target body, outer, R, cur, d, hs, ho, hd, hR => by
    cases target with
    | field f =>
      rw [exact, holds]
      have target : seen outer cur d (commonPath (loopPaths cur f var body)) f = R f :=
        seen_eq hd (loopPaths_isPrefix (.inl rfl)) (hR f (List.mem_append_left _ (by simp [free])))
      rw [target]
      refine LoopMode.over_congr fun items hi x hx => ?_
      obtain ⟨y, hy, hi⟩ := Option.bind_eq_some_iff.mp hi
      have hyu : y.Unique :=
        uniqueFields_seen (q := commonPath (loopPaths cur f var body)) ho hd f y
          (target.trans hy)
      have hxu : x.Unique := by
        cases y with
        | array _ _ _ =>
          cases hi
          exact Doc.unique_of_items hyu x hx
        | _ => cases hi
      refine exact_eq_holds hs.2 (uniqueFields_loopSeen ho hd) hxu fun g hg => ?_
      rw [bindTo]
      split
      · rfl
      · next hv =>
        have hgR := hR g (List.mem_append_right _ (List.mem_filter.mpr
          ⟨hg, decide_eq_true hv⟩))
        rw [loopSeen]
        split
        · next hin =>
          rw [hgR, hidden]
          split
          · next hr =>
            obtain ⟨rfl, hv⟩ := hin.free_eq hg hr
            exact absurd hg (hs.1 g rfl hv)
          · rfl
        · exact (seen_eq hd (loopPaths_isPrefix (.inr hg)) hgR).symm
    | _ => rfl
  | .truth _, _, _, _, _, _, _, _, _ => rfl
  | .value _, _, _, _, _, _, _, _, _ => rfl
  | .field f, _, _, _, _, _, _, hd, hR => exact_test rfl hd hR
  | .func _ _, _, _, _, _, _, _, hd, hR => exact_test rfl hd hR
  | .present _, _, _, _, _, _, _, hd, hR => exact_test rfl hd hR
  | .absent _, _, _, _, _, _, _, hd, hR => exact_test rfl hd hR
  | .relation .., _, _, _, _, _, _, hd, hR => exact_test rfl hd hR
  | .like .., _, _, _, _, _, _, hd, hR => exact_test rfl hd hR

theorem exactAll_eq_holdAll : ∀ {es : List Expr} {outer R : Field → Option Doc} {cur : Variable}
    {d : Doc}, AllSelfless es → UniqueFields outer → d.Unique →
    Agree R outer cur d (freeOfAll es) → exactAll kit data outer cur d es = holdAll kit data R es
  | [], _, _, _, _, _, _, _, _ => rfl
  | e :: rest, _, _, _, _, hs, ho, hd, hR => by
    rw [exactAll, holdAll, exact_eq_holds hs.1 ho hd fun f hf => hR f (List.mem_append_left _ hf),
      exactAll_eq_holdAll hs.2 ho hd fun f hf => hR f (List.mem_append_right _ hf)]

theorem exactAny_eq_holdAny : ∀ {es : List Expr} {outer R : Field → Option Doc} {cur : Variable}
    {d : Doc}, AllSelfless es → UniqueFields outer → d.Unique →
    Agree R outer cur d (freeOfAll es) → exactAny kit data outer cur d es = holdAny kit data R es
  | [], _, _, _, _, _, _, _, _ => rfl
  | e :: rest, _, _, _, _, hs, ho, hd, hR => by
    rw [exactAny, holdAny, exact_eq_holds hs.1 ho hd fun f hf => hR f (List.mem_append_left _ hf),
      exactAny_eq_holdAny hs.2 ho hd fun f hf => hR f (List.mem_append_right _ hf)]

end

end Expr

end Unique

end Sift
