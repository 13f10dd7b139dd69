import Mathlib
import Sift.Standard
import Sift.Proofs.Documents
import Sift.Proofs.Order.Outcomes

/-!
# Matching in any order

The children of a node that have had no value are gone through in no particular order:

* `Plan.run_in_any_order`: whatever the order is, matchers say the same of any bytes, unless one of
  them breaks off in a loop over an array that it had captured, and so only skipped before. On a
  well-formed document that does not happen;
* `Plan.order_matters_brokenArray`: where it does happen, a matcher that takes the children in another
  order may have been decided before it comes to that loop.
-/

namespace Sift

open Grammar Resolution

variable {data : Bytes} {d : Doc}

/-! ## 1. The contrary order of children -/

mutual

/-- A node with all children in the contrary order. -/
def Node.reversed : Node → Node
  | ⟨slot, tests, loops, children, afterTests, afterLoops⟩ =>
    ⟨slot, tests, Node.reversedLoops loops, (Node.reversedChildren children).reverse, afterTests,
      Node.reversedLoops afterLoops⟩

/-- Loops over such bodies. -/
def Node.reversedLoops : List Loop → List Loop
  | [] => []
  | ⟨bucket, mode, target, body, locals⟩ :: rest =>
    ⟨bucket, mode, target, body.reversed, locals⟩ :: Node.reversedLoops rest

/-- Children that are such nodes, in the same order. -/
def Node.reversedChildren : List (String × Node) → List (String × Node)
  | [] => []
  | (name, n) :: rest => (name, n.reversed) :: Node.reversedChildren rest

end

mutual

theorem Node.reordered_reversed : ∀ n : Node, n.Reordered n.reversed
  | ⟨_, _, loops, children, _, afterLoops⟩ => by
    rw [reversed]
    refine .mk (reordered_reversedLoops loops) (List.reverse_perm _).symm ?_
      (reordered_reversedLoops afterLoops)
    exact List.rel_reverse (reordered_reversedChildren children)

theorem Node.reordered_reversedLoops : ∀ loops : List Loop,
    List.Forall₂ ReorderedLoop loops (reversedLoops loops)
  | [] => by
    rw [reversedLoops]
    exact .nil
  | ⟨_, _, _, body, _⟩ :: rest => by
    rw [reversedLoops]
    exact .cons (.mk (reordered_reversed body)) (reordered_reversedLoops rest)

theorem Node.reordered_reversedChildren : ∀ children : List (String × Node),
    List.Forall₂ ReorderedChild children (reversedChildren children)
  | [] => by
    rw [reversedChildren]
    exact .nil
  | (_, n) :: rest => by
    rw [reversedChildren]
    exact .cons (.mk (reordered_reversed n)) (reordered_reversedChildren rest)

end

namespace Plan

/-! ## 2. Matchers -/

variable {kit : Toolkit} {D : Decimals} {p p' p₁ p₂ : Plan} {es : List Expr}

/-- Two matchers that answer, and answer the same. -/
def AnswerAlike (p p' : Plan) (D : Decimals) (data : Bytes) : Prop :=
  ∃ any m m', (Matcher.fresh p).run D data = (.ok any, m) ∧
    (Matcher.fresh p').run D data = (.ok any, m') ∧ ∀ i, m'.isTrueAt i = m.isTrueAt i

theorem answerAlike_of_walks (hb : p'.buckets = p.buckets)
    (ok : (p.walk D (.fresh p) data).1 = .ok ()) (ok' : (p'.walk D (.fresh p') data).1 = .ok ())
    (same : ∀ b ∈ p.buckets, (p'.walk D (.fresh p') data).2.state.get b =
      (p.walk D (.fresh p) data).2.state.get b) : AnswerAlike p p' D data := by
  have isTrue (b : Nat) (hm : b ∈ p.buckets) : (p'.walk D (.fresh p') data).2.state.isTrue b =
      (p.walk D (.fresh p) data).2.state.isTrue b := by
    rw [State.isTrue, State.isTrue, same b hm]
  have any : p'.buckets.any (p'.walk D (.fresh p') data).2.state.isTrue =
      p.buckets.any (p.walk D (.fresh p) data).2.state.isTrue := by
    rw [hb, Bool.eq_iff_iff, List.any_eq_true, List.any_eq_true]
    exact exists_congr fun b => and_congr_right fun hm => by rw [isTrue b hm]
  refine ⟨p.buckets.any (p.walk D (.fresh p) data).2.state.isTrue, _, _,
    Prod.ext ?_ rfl, Prod.ext ?_ rfl, fun i => ?_⟩
  · rw [Matcher.run_fresh, ok]
    rfl
  · rw [Matcher.run_fresh, ok', any]
    rfl
  · rw [Matcher.run_fresh, Matcher.run_fresh]
    simp only [Matcher.isTrueAt, Matcher.fresh, hb]
    split
    · next b hi => exact isTrue b (List.mem_of_getElem? hi)
    · rfl

theorem test_eq_error {e : MatchError} (h : (p.walk D (.fresh p) data).1 = .error e) :
    p.test D data = .error e := by
  rw [Plan.test, Matcher.run_fresh, h]
  rfl

/-- **In whatever orders the children are gone through, matchers say the same of any bytes**, or both
    fail, unless one of them breaks off in a loop over an array that it had captured. Of a well-formed
    document they always say the same. -/
theorem run_in_any_order (h : compileAll kit es = .ok p) (h₁ : p.Reordered p₁) (h₂ : p.Reordered p₂)
    (data : Bytes) :
    (AnswerAlike p₁ p₂ kit.decimals data ∨
      ((∃ e, p₁.test kit.decimals data = .error e) ∧ ∃ e, p₂.test kit.decimals data = .error e) ∨
      p₁.BreaksOff kit data ∨ p₂.BreaksOff kit data) ∧
    ∀ d : Doc, d.Text data → AnswerAlike p₁ p₂ kit.decimals data := by
  have hcompiled := compiled_of_reordered h h₁
  have hr : p₁.Reordered p₂ := h₁.symm.trans h₂
  have together := hcompiled.go_together hr data
  refine ⟨?_, fun d hd => ?_⟩
  · cases together with
    | ends ok ok' same => exact .inl (answerAlike_of_walks hr.buckets ok ok' same)
    | fails error error' => exact .inr (.inl ⟨⟨_, test_eq_error error⟩, _, test_eq_error error'⟩)
    | first hb => exact .inr (.inr (.inl hb))
    | second hb => exact .inr (.inr (.inr hb))
  · have ok := (hcompiled.walk_values hd.whole).1
    have ok' := ((hcompiled.reordered hr).walk_values hd.whole).1
    cases together with
    | ends _ _ same => exact answerAlike_of_walks hr.buckets ok ok' same
    | fails error _ =>
      rw [ok] at error
      cases error
    | first hb =>
      obtain ⟨⟨e, he⟩, -⟩ := hb
      rw [ok] at he
      cases he
    | second hb =>
      obtain ⟨⟨e, he⟩, -⟩ := hb
      rw [ok'] at he
      cases he

/-! ## 3. An array that is broken -/

/-- A plan with all children in the contrary order. -/
def reversed (p : Plan) : Plan := { p with root := p.root.reversed }

theorem reordered_reversed (p : Plan) : p.Reordered p.reversed :=
  ⟨p.root.reordered_reversed, rfl, rfl, rfl⟩

/-- Some item has no `a`, or its `b.x` is in the array. -/
def plainOrListed : Expr :=
  .loop .any 1 (.field ⟨Variable.root, ["items"]⟩) (.or [.absent (.field ⟨1, ["a"]⟩),
    .loop .any 2 (.field ⟨Variable.root, ["arr"]⟩)
      (.relation .equals (.field ⟨2, []⟩) (.field ⟨1, ["b", "x"]⟩))])

/-- An item with neither, and an array with no comma between its elements. -/
def brokenArray : Bytes := "\x7b\"items\":[\x7b\x7d],\"arr\":[1 2]\x7d".toUTF8.toList

/-- In one order the matcher is decided by the item that has no `a`, and in the other it runs into the
    array first. -/
theorem test_brokenArray : ∃ p, compileAll .standard [plainOrListed] = .ok p ∧
    p.test .standard brokenArray = .ok true ∧
      ∃ e, p.reversed.test .standard brokenArray = .error e := by
  obtain ⟨p, hp⟩ := (compileAll_isOk .standard [plainOrListed]).mpr (by
    simp [plainOrListed, Expr.Formed, Expr.AllFormed, Expr.IsOperand])
  refine ⟨p, hp, eq_of_map hp (f := (·.test .standard brokenArray)) (by cbv), ?_⟩
  -- the plan is computed first, since compiling and matching are too much for one evaluation
  have hplan := eq_of_map hp (f := reversed) (by cbv)
  have hfails : (p.reversed.test .standard brokenArray).isOk = false := by
    rw [hplan]
    decide +kernel
  cases he : p.reversed.test .standard brokenArray with
  | error e => exact ⟨e, rfl⟩
  | ok _ =>
    rw [he] at hfails
    cases hfails

/-- **The order of the children may matter**, where an array is broken. -/
theorem order_matters_brokenArray : ¬ ∀ (es : List Expr) (p p₁ p₂ : Plan) (data : Bytes),
    compileAll .standard es = .ok p → p.Reordered p₁ → p.Reordered p₂ →
      AnswerAlike p₁ p₂ .standard data ∨
        ((∃ e, p₁.test .standard data = .error e) ∧ ∃ e, p₂.test .standard data = .error e) := by
  obtain ⟨p, hp, hok, e, herr⟩ := test_brokenArray
  intro h
  rcases h _ p p p.reversed brokenArray hp (.refl p) p.reordered_reversed with
    ⟨any, m, m', -, hrun, -⟩ | ⟨⟨e', herr'⟩, -⟩
  · cases herr.symm.trans (congrArg Prod.fst hrun)
  · cases hok.symm.trans herr'

/-- It is in the contrary order that the matcher breaks off in a loop over that array. -/
theorem run_in_any_order_brokenArray : ∃ p, compileAll .standard [plainOrListed] = .ok p ∧
    p.Reordered p.reversed ∧ p.test .standard brokenArray = .ok true ∧
      p.reversed.BreaksOff .standard brokenArray := by
  obtain ⟨p, hp, hok, e, herr⟩ := test_brokenArray
  refine ⟨p, hp, p.reordered_reversed, hok, ?_⟩
  rcases (run_in_any_order hp (.refl p) p.reordered_reversed brokenArray).1 with
    ⟨any, m, m', -, hrun, -⟩ | ⟨⟨e', herr'⟩, -⟩ | ⟨⟨e', he⟩, -⟩ | hb
  · cases herr.symm.trans (congrArg Prod.fst hrun)
  · cases hok.symm.trans herr'
  · cases hok.symm.trans (test_eq_error he)
  · exact hb

end Plan

end Sift
