import Sift.Proofs.AnyBytes
import Sift.Proofs.Grammar.Documents
import Sift.Proofs.Plan.Expected

/-!
# Matching well-formed documents

What a matcher says of a document that is well formed, told by the grammar of documents
(`Doc.Text`) and the meaning of expressions (`Expr.holds`), in whatever order the children of its
nodes are gone through:

* `Plan.test_holds`: of a document without repeated names, it says what the expression means, if no
  loop reads the field that it is over;
* `Plan.batch_tells_each`: of several expressions, it says of each what a matcher for that one alone
  says;
* `Plan.run_fetches`: of a document without repeated names, what a slot holds whenever a test or a
  loop looks at it.
-/

namespace Sift

open Grammar

variable {kit : Toolkit} {data : Bytes} {d : Doc}

namespace Plan

/-! ## 1. One expression -/

/-- A compiled expression is told what is made of it. -/
theorem test_exact {e : Expr} {q p : Plan} (h : compile kit e = .ok q) (hr : q.Reordered p)
    (hd : d.Text data) :
    p.test kit.decimals data = .ok (e.exact kit data (fun _ => none) Variable.root d) := by
  rw [(compiled_of_reordered h hr).test_eq hd.whole, List.any_cons, List.any_nil, Bool.or_false]

/-- **Of a document without repeated names a matcher says what the expression means**, if no loop
    in it reads the field that it is over. -/
theorem test_holds {e : Expr} {q p : Plan} (h : compile kit e = .ok q) (hr : q.Reordered p)
    (hs : e.Selfless) (hd : d.Text data) (hu : d.Unique) :
    p.test kit.decimals data = .ok (e.holds kit data (Expr.fieldsOf d)) := by
  rw [test_exact h hr hd]
  refine congrArg Except.ok (Expr.exact_eq_holds hs nofun hu fun f _ => ?_)
  rw [Expr.fieldsOf]

/-- The array that `[true]` is. -/
def oneTrueDoc : Doc := .array ⟨.arrayStart, 0, ['['.toUInt8]⟩
  [.scalar ⟨.true, 1, ['t', 'r', 'u', 'e'].map Char.toUInt8⟩] 6

theorem text_oneTrue : oneTrueDoc.Text oneTrue :=
  ⟨[], oneTrue, [], rfl, nofun, ⟨rfl, rfl, _, rfl, [], _, [], rfl, nofun, ⟨rfl, rfl, .true⟩, nofun⟩,
    nofun⟩

theorem test_holds_anyTrue : ∃ p, compile .standard anyTrue = .ok p ∧
    p.test .standard oneTrue = .ok true := by
  obtain ⟨p, hp⟩ := (compile_isOk .standard anyTrue).mpr (by
    simp [anyTrue, Expr.Formed, Expr.IsOperand])
  refine ⟨p, hp, ?_⟩
  refine (test_holds hp (.refl p) ?_ text_oneTrue ?_).trans (by cbv)
  · simp [anyTrue, Expr.Selfless, Expr.free, Variable.root]
  · simp [oneTrueDoc, Doc.Unique, Doc.UniqueAll]

/-! ## 2. Several expressions -/

/-- Expressions that have a plan each have one together. -/
theorem compileAll_of_each {es : List Expr} (hne : es ≠ [])
    (h : ∀ e ∈ es, ∃ p, compile kit e = .ok p) : ∃ p, compileAll kit es = .ok p :=
  (compileAll_isOk kit es).mpr
    ⟨hne, Expr.allFormed_iff.mpr fun e he => (compile_isOk kit e).mp (h e he)⟩

/-- **A plan for several expressions tells of each what a plan for that one alone tells**, and of
    all of them whether any is true. -/
theorem batch_tells_each {es : List Expr} (htwo : 2 ≤ es.length)
    (heach : ∀ e ∈ es, ∃ p, compile kit e = .ok p) (hd : d.Text data) :
    ∃ p₀, compileAll kit es = .ok p₀ ∧ ∀ p, p₀.Reordered p →
      ∃ any m, (Matcher.fresh p).run kit.decimals data = (.ok any, m) ∧
        (∀ i e q₀ q, es[i]? = some e → compile kit e = .ok q₀ → q₀.Reordered q →
          q.test kit.decimals data = .ok (m.isTrueAt i)) ∧
        (any = true ↔ ∃ i < es.length, m.isTrueAt i = true) := by
  obtain ⟨p₀, hp⟩ := compileAll_of_each (List.ne_nil_of_length_pos (by omega)) heach
  refine ⟨p₀, hp, fun p hr => ?_⟩
  have hcompiled := compiled_of_reordered hp hr
  have hrun := hcompiled.test_eq hd.whole
  refine ⟨_, _, Prod.ext hrun rfl, fun i e q₀ q he hq hr => ?_, ?_⟩
  · rw [hcompiled.isTrueAt hd.whole he, test_exact hq hr hd]
  · rw [List.any_eq_true]
    constructor
    · rintro ⟨e, he, htrue⟩
      obtain ⟨i, hi, rfl⟩ := List.mem_iff_getElem.mp he
      exact ⟨i, hi, (hcompiled.isTrueAt hd.whole (List.getElem?_eq_getElem hi)).trans htrue⟩
    · rintro ⟨i, hi, htrue⟩
      rw [hcompiled.isTrueAt hd.whole (List.getElem?_eq_getElem hi)] at htrue
      exact ⟨es[i], List.getElem_mem hi, htrue⟩

/-- One expression holds of `[true]` and its negation does not, so some does. -/
theorem batch_tells_each_anyTrue : ∃ p m, compileAll .standard [anyTrue, .not anyTrue] = .ok p ∧
    (Matcher.fresh p).run .standard oneTrue = (.ok true, m) ∧ m.isTrueAt 0 = true ∧
      m.isTrueAt 1 = false := by
  have heach : ∀ e ∈ [anyTrue, .not anyTrue], ∃ p, compile .standard e = .ok p := by
    intro e he
    refine (compile_isOk .standard e).mpr ?_
    rcases List.mem_pair.mp he with rfl | rfl <;>
      simp [anyTrue, Expr.Formed, Expr.IsOperand]
  obtain ⟨p, hp, hbatch⟩ := batch_tells_each (by decide) heach text_oneTrue
  obtain ⟨any, m, hrun, htells, hany⟩ := hbatch p (.refl p)
  obtain ⟨q, hq⟩ := heach anyTrue (by simp)
  obtain ⟨r, hr⟩ := heach (.not anyTrue) (by simp)
  have hfirst := htells 0 _ q q rfl hq (.refl q)
  have hsecond := htells 1 _ r r rfl hr (.refl r)
  rw [test_exact hq (.refl q) text_oneTrue, Except.ok.injEq] at hfirst
  rw [test_exact hr (.refl r) text_oneTrue, Except.ok.injEq] at hsecond
  have htrue : m.isTrueAt 0 = true := hfirst ▸ by cbv
  obtain rfl : any = true := hany.mpr ⟨0, by decide, htrue⟩
  exact ⟨p, m, hp, hrun, htrue, hsecond ▸ by cbv⟩

/-! ## 3. Slots -/

section Slots

variable {es : List Expr} {q p : Plan} {later earlier : List Event} {reader s : Nat}
  {found : Option Span}

/-- **What a slot holds whenever a test or a loop looks at it**: the value at the path that the slot
    was given to, in what the scope of the path is bound to by then. It is empty if there is no such
    value, and to what is in a loop that runs over the array at that very path. -/
theorem run_fetches (h : compileAll kit es = .ok q) (hr : q.Reordered p) (hd : d.Text data)
    (hu : d.Unique) (htrail : ((Matcher.fresh p).run kit.decimals data).2.walker.trail =
      later ++ .fetched reader s found :: earlier) :
    p.root.ExpectedAt p.tree d (¬ Expr.AllSelfless es) earlier reader s found := by
  have compiled := compiled_of_reordered h hr
  rw [Matcher.run_fresh] at htrail
  obtain ⟨-, -, hfaithful⟩ := compiled.walk_right hd.whole (compiled.tells hu)
  exact hfaithful later reader s found earlier htrail

/-- **Slots are filled before they are looked at**, if no loop reads the field that it is over. -/
theorem run_fetches_filled (h : compileAll kit es = .ok q) (hr : q.Reordered p)
    (hs : Expr.AllSelfless es) (hd : d.Text data) (hu : d.Unique)
    (htrail : ((Matcher.fresh p).run kit.decimals data).2.walker.trail =
      later ++ .fetched reader s found :: earlier) :
    ∃ bucket? n path x, p.root.ScopeAt bucket? n ∧ (s, path) ∈ n.places ∧
      BoundTo d bucket? earlier x ∧ found = (x.follow path).map Doc.span := by
  obtain ⟨bucket?, n, path, x, hscope, hplace, hbound, hfilled, hown⟩ :=
    run_fetches h hr hd hu htrail
  exact ⟨bucket?, n, path, x, hscope, hplace, hbound,
    hfilled fun hreads => (hown hreads).1 hs⟩

/-- Two elements of the array `xs` are the same, where the inner loop reads the field that the outer
    one is over. -/
def selfJoin : Expr :=
  .loop .any 1 (.field ⟨Variable.root, ["xs"]⟩) (.loop .any 2 (.field ⟨Variable.root, ["xs"]⟩)
    (.relation .equals (.field ⟨1, []⟩) (.field ⟨2, []⟩)))

/-- The text `{"xs":[1,1]}`. -/
def twoOnes : Bytes :=
  ['\x7b', '"', 'x', 's', '"', ':', '[', '1', ',', '1', ']', '\x7d'].map Char.toUInt8

-- the inner loop finds nothing where the array should be
example : ((compileAll .standard [selfJoin]).map fun p =>
    (p.test .standard twoOnes, ((Matcher.fresh p).run .standard twoOnes).2.walker.trail[4]?)) =
      .ok (.ok false, some (.fetched 1 1 none)) := by cbv

end Slots

end Plan

end Sift
