import Mathlib
import Sift.Standard
import Sift.Proofs.Matching
import Sift.Proofs.Plan.Formed
import Sift.Proofs.Plan.Reordered

/-!
# Matching any bytes

What holds of a matcher for compiled expressions whatever the bytes are, JSON or not, and in
whatever order the children of its nodes are gone through:

* `Plan.run_ends`: it comes to an end, which is an answer or an error of the document and never a
  defect, so that every bucket, slot and span that it asks for is there;
* `Plan.run_resolves`: where it answers, every expression has a truth value, and what a loop makes of
  an element that has been read is always made of one;
* `Plan.run_stops`: once it is decided it reads nothing more, but for one look at what follows the
  document if that has been read whole.
-/

namespace Sift

open Resolution

/-! ## 1. Trees without loose ends -/

/-- What the nodes of a tree refer to is there. -/
structure Resolution.Tree.Closed (t : Tree) : Prop where
  ends : t.ends.size = t.size
  parent : ∀ i < t.size, (t.node i).parent < t.size
  left : ∀ i < t.size, (t.node i).left < t.size
  right : ∀ i < t.size, (t.node i).right < t.size
  stop : ∀ i < t.size, t.stop i ≤ t.size

theorem Resolution.Tree.Valid.closed {t : Tree} (h : t.Valid) : t.Closed where
  ends := h.ends
  parent i hi := by
    rcases Nat.eq_zero_or_pos i with rfl | h0
    · rw [h.root]
      exact h.pos
    · exact Nat.lt_trans (Tree.isBelow_iff.mp (h.below_parent h0 hi)).1 hi
  left i hi := by
    cases h.shape i hi with
    | leaf _ left => exact left ▸ h.pos
    | one _ left _ child => exact left ▸ child.lt
    | two _ left _ child => exact left ▸ child.lt
  right i hi := by
    cases h.shape i hi with
    | leaf _ _ right => exact right ▸ h.pos
    | one _ _ right => exact right ▸ h.pos
    | two _ _ right _ other => exact right ▸ other.lt
  stop i hi := (Tree.stop_bounds h.shape i hi).2

namespace Plan

variable {kit : Toolkit} {p q : Plan} {es : List Expr}

/-- The buckets of a plan are nodes of its tree. -/
theorem Compiled.bucket_lt (h : p.Compiled kit es) : ∀ b ∈ p.buckets, b < p.tree.size := fun _ hb =>
  let ⟨_, hp⟩ := h.expr_of_bucket hb
  (h.laid_of_mem hp).lt

/-! ## 2. Errors -/

/-- **A matcher comes to an end on any bytes**, with an answer or with an error that the document is
    to blame for, and its tree and its slots have everything that is looked up in them. -/
theorem run_ends (h : compileAll kit es = .ok q) (hr : q.Reordered p) (data : Bytes) :
    ((∃ any, p.test kit.decimals data = .ok any) ∨
        ∃ e, p.test kit.decimals data = .error e ∧ ∀ d, e ≠ .defect d) ∧
      p.tree.Closed ∧ (∀ b ∈ p.buckets, b < p.tree.size) ∧ ∀ s ∈ p.root.slots, s < p.slots := by
  have hcompiled := compiled_of_reordered h hr
  refine ⟨?_, hcompiled.tree.closed, hcompiled.bucket_lt, fun s => (hcompiled.slots s).mp⟩
  rw [Plan.test, Matcher.run_fresh]
  cases hw : (p.walk kit.decimals (.fresh p) data).1 with
  | ok _ => exact .inl ⟨_, rfl⟩
  | error e => exact .inr ⟨e, rfl, hcompiled.safe data e hw⟩

/-- Some element of the document is true. -/
def anyTrue : Expr := .loop .any 1 (.field ⟨Variable.root, []⟩) (.field ⟨1, []⟩)

theorem compileAll_anyTrue : ∃ p, compileAll .standard [anyTrue] = .ok p :=
  (compileAll_isOk .standard [anyTrue]).mpr (by
    simp [anyTrue, Expr.AllFormed, Expr.Formed, Expr.IsOperand])

/-- What can be computed of a plan can be computed of the expressions. -/
theorem eq_of_map {α : Type} {f : Plan → α} {a : α} (h : compileAll kit es = .ok p)
    (hf : (compileAll kit es).map f = .ok a) : f p = a := by
  rw [h] at hf
  exact Except.ok.inj hf

/-- The document `[null` breaks off and is to blame. -/
theorem run_ends_anyTrue : ∃ p, compileAll .standard [anyTrue] = .ok p ∧
    ∃ e, p.test .standard (['[', 'n', 'u', 'l', 'l'].map Char.toUInt8) = .error e ∧
      ∀ d, e ≠ .defect d := by
  obtain ⟨p, hp⟩ := compileAll_anyTrue
  refine ⟨p, hp, (run_ends hp (.refl p) _).1.resolve_left ?_⟩
  rintro ⟨_, hok⟩
  have hfails := eq_of_map hp (a := false) (f := fun p =>
    (p.test Toolkit.standard.decimals (['[', 'n', 'u', 'l', 'l'].map Char.toUInt8)).isOk) (by cbv)
  rw [hok] at hfails
  cases hfails

/-! ## 3. Answers -/

/-- **Where a matcher answers, every expression has a truth value**, and in every walk what a loop
    makes of an element that has been read is made of one. -/
theorem run_resolves (h : compileAll kit es = .ok q) (hr : q.Reordered p) (data : Bytes) :
    (∀ any m, (Matcher.fresh p).run kit.decimals data = (.ok any, m) →
      ∀ b ∈ p.buckets, ∃ v, m.walker.state.get b = .value v) ∧
    ∀ b mark, .judged b mark ∈ ((Matcher.fresh p).run kit.decimals data).2.walker.trail →
      ∃ v, mark = .value v := by
  have hcompiled := compiled_of_reordered h hr
  refine ⟨fun any m hrun => ?_, fun b mark hj => hcompiled.judged data hj⟩
  rw [Matcher.run_fresh] at hrun
  obtain ⟨hok, rfl⟩ := Prod.mk.inj hrun
  refine hcompiled.complete data ?_
  cases hw : (p.walk kit.decimals (.fresh p) data).1 with
  | ok _ => rfl
  | error e =>
    rw [hw] at hok
    cases hok

/-- The text `[true]`. -/
def oneTrue : Bytes := ['[', 't', 'r', 'u', 'e', ']'].map Char.toUInt8

theorem run_resolves_anyTrue : ∃ p m, compileAll .standard [anyTrue] = .ok p ∧
    (Matcher.fresh p).run .standard oneTrue = (.ok true, m) ∧
    (∀ b ∈ p.buckets, ∃ v, m.walker.state.get b = .value v) ∧
    ∃ mark, .judged 0 mark ∈ m.walker.trail ∧ ∃ v, mark = .value v := by
  obtain ⟨p, hp⟩ := compileAll_anyTrue
  have hanswer : p.test .standard oneTrue = .ok true :=
    eq_of_map hp (f := (·.test .standard oneTrue)) (by cbv)
  have hrun : (Matcher.fresh p).run .standard oneTrue =
      (.ok true, ((Matcher.fresh p).run .standard oneTrue).2) := Prod.ext hanswer rfl
  have hjudged : .judged 0 (.value true) ∈
      ((Matcher.fresh p).run .standard oneTrue).2.walker.trail := by
    rw [eq_of_map hp (f := fun p => ((Matcher.fresh p).run .standard oneTrue).2.walker.trail)
      (a := [.marked 0 true true, .judged 0 (.value true), .marked 1 true false,
        .began 0 ⟨.true, 1, ['t', 'r', 'u', 'e'].map Char.toUInt8⟩ #[.unknown, .unknown] #[],
        .stepped, .stepped]) (by cbv)]
    simp
  obtain ⟨hvalues, hvalue⟩ := run_resolves hp (.refl p) oneTrue
  exact ⟨p, _, hp, hrun, hvalues _ _ hrun, _, hjudged, hvalue _ _ hjudged⟩

/-! ## 4. Early exit -/

/-- **Once a walk is decided it reads nothing more**, but for one look at what follows the document
    if that has been read whole. -/
theorem run_stops (h : compileAll kit es = .ok q) (hr : q.Reordered p) (data : Bytes) {b : Nat}
    {v : Bool} {later earlier : List Event}
    (htrail : ((Matcher.fresh p).run kit.decimals data).2.walker.trail =
      later ++ .marked b v true :: earlier) :
    (.wholeRead ∈ earlier → later = [.stepped]) ∧ (.wholeRead ∉ earlier → later = []) := by
  have haccounted := (compiled_of_reordered h hr).accounted data
  rw [Matcher.run_fresh] at htrail
  exact Accounted.stops (htrail ▸ haccounted)

/-- The text `true`. -/
def trueText : Bytes := ['t', 'r', 'u', 'e'].map Char.toUInt8

/-- Whether the document is true is known once it has been read whole, so there is one look at what
    follows. -/
theorem run_stops_true : ∃ p later earlier,
    compileAll .standard [.field ⟨Variable.root, []⟩] = .ok p ∧
      ((Matcher.fresh p).run .standard trueText).2.walker.trail =
        later ++ .marked 0 true true :: earlier ∧ .wholeRead ∈ earlier ∧ later = [.stepped] := by
  obtain ⟨p, hp⟩ := (compileAll_isOk .standard [.field ⟨Variable.root, []⟩]).mpr (by
    simp [Expr.AllFormed, Expr.Formed, Expr.IsOperand])
  have htrail := eq_of_map hp (f := fun p =>
    ((Matcher.fresh p).run .standard trueText).2.walker.trail)
    (a := [.stepped] ++ .marked 0 true true :: [.wholeRead, .stepped]) (by cbv)
  have hread : .wholeRead ∈ [.wholeRead, Event.stepped] := List.mem_cons_self
  exact ⟨p, _, _, hp, htrail, hread, (run_stops hp (.refl p) trueText htrail).1 hread⟩

end Plan

end Sift
