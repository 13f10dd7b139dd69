import Sift.Matcher
import Sift.Proofs.Plan.Compiled
import Sift.Proofs.Walk.Account
import Sift.Proofs.Walk.Whole

/-!
# Matching with compiled plans

Walks of compiled plans are put together from what is known of walks and of plans:

* `Plan.Compiled.safe`: over any bytes a walk ends, well or with an error of the document;
* `Plan.Compiled.walk_right`: over a well-formed document it ends well, and then each expression has
  the truth value that is made of it.

Putting the children of a plan in another order leaves it compiled (`Plan.Compiled.reordered`), so
that nothing here depends on the order in which they are gone through.
-/

namespace Sift

open Resolution

variable {kit : Toolkit} {p : Plan} {es : List Expr} {data : Bytes} {d : Doc}

/-! ## 1. Where a walk begins -/

namespace Plan

/-- A walker at the start of a document. -/
def start (p : Plan) (data : Bytes) : Walker :=
  { Walker.fresh p with cursor := .start data, trail := [] }

/-- Nothing has been captured at the start. -/
theorem held_start (s : Nat) : (p.start data).held s = none := by
  rw [Walker.held, start, Walker.fresh]
  cases h : (Array.replicate p.slots (none : Option Span))[s]? with
  | none => rfl
  | some a =>
    rw [Array.getElem?_replicate] at h
    split at h
    · cases h
      rfl
    · cases h

theorem Compiled.fit_start (h : p.Compiled kit es) : (p.start data).Fit (p.course kit data) where
  data := rfl
  inside := Nat.zero_le _
  tree := rfl
  good := State.good_fresh h.tree
  slots := Array.size_replicate
  spans s span hs := by
    have : (p.start data).held s = none := held_start s
    rw [Walker.held, hs] at this
    cases this

/-- Nothing is known at the start, and there is something to be known. -/
theorem open_start (D : Decimals) :
    (p.start data).Open (.reading (p.setting D data) p.tree) none := by
  have hunknown : ∀ b, (p.start data).state.isResolved b = false := fun b => by
    rw [State.isResolved, State.isUnknown, start, Walker.fresh, State.get_fresh]
    rfl
  refine ⟨⟨rfl, rfl, fun _ h => by cases h⟩, ?_⟩
  show (p.setting D data).isSettled (p.start data).state = false
  rw [Setting.isSettled]
  split
  · next hlen =>
    rw [Bool.and_eq_true, decide_eq_true_eq] at hlen
    rw [List.all_eq_false]
    exact ⟨p.buckets.get ⟨0, Nat.lt_of_succ_lt hlen.2⟩, List.get_mem _ _, by simp [hunknown]⟩
  · exact hunknown 0

/-- What comes of a walk is what comes of one that halts where it is settled. -/
theorem Compiled.walk_eq (h : p.Compiled kit es) : p.walk kit.decimals (.fresh p) data =
    match (Walk.document p.root.halting).outcome (p.setting kit.decimals data) (p.start data) with
    | (.ok _, w) | (.error .settled, w) => (.ok (), w)
    | (.error (.failed e), w) => (.error e, w) :=
  Pass.outcome_document (c := p.course kit data) h.tree h.fits (open_start _)

/-! ## 2. Any bytes -/

/-- What comes of a walk over any bytes. -/
theorem Compiled.walk_meets (h : p.Compiled kit es) (data : Bytes)
    {Q : Except MatchError Unit × Walker → Prop}
    (hok : ∀ w, w.Fit (p.course kit data) → (p.start data).Extends w →
      (∀ b ∈ p.buckets, w.Known b) → Q (.ok (), w))
    (herr : ∀ e w, e.OfDocument → (p.start data).Extends w → Q (.error e, w)) :
    Q (p.walk kit.decimals (.fresh p) data) := by
  have hsafe := Walk.safe_document (s := p.setting kit.decimals data) (c := p.course kit data)
    h.fits rfl h.fit_start rfl
  unfold Walk.Safe Walk.Meets at hsafe
  rw [h.walk_eq]
  split at hsafe
  · next heq =>
    obtain ⟨hm, hfit, hknown⟩ := hsafe
    rw [heq]
    refine hok _ hfit hm.trail ?_
    rcases hknown with hset | hknown
    · exact Walk.known_of_isSettled h.bucket_of_single hm.stall hset
    · exact fun b hb => State.known_of_rests hfit.good hknown (hfit.tree ▸ h.rests b hb)
  · next halt w heq =>
    rw [heq]
    cases halt with
    | settled =>
      obtain ⟨hm, hfit, hset, -⟩ := hsafe
      exact hok _ hfit hm.trail (Walk.known_of_isSettled h.bucket_of_single hm.stall hset)
    | failed e => exact herr e w hsafe.1 hsafe.2

/-- **A walk over any bytes** ends well or with an error of the document. -/
theorem Compiled.safe (h : p.Compiled kit es) (data : Bytes) :
    ∀ e, (p.walk kit.decimals (.fresh p) data).1 = .error e → e.OfDocument :=
  h.walk_meets data (Q := fun r => ∀ e, r.1 = .error e → e.OfDocument) (fun _ _ _ _ => nofun)
    fun _ _ he _ _ h => by
      cases h
      exact he

/-- **A walk over any bytes that ends well** has a value for every expression. -/
theorem Compiled.complete (h : p.Compiled kit es) (data : Bytes)
    (hok : (p.walk kit.decimals (.fresh p) data).1 = .ok ()) :
    ∀ b ∈ p.buckets, ∃ v, (p.walk kit.decimals (.fresh p) data).2.state.get b = .value v := by
  refine h.walk_meets data (Q := fun r => r.1 = .ok () → ∀ b ∈ p.buckets, ∃ v, r.2.state.get b =
    .value v) (fun w hfit _ hknown _ b hb => ?_) (fun _ _ _ _ => nofun) hok
  exact hfit.value_of_known (hknown b hb) (h.top b hb)

/-- **What a loop makes of an element** that has been read is made of a value. -/
theorem Compiled.judged (h : p.Compiled kit es) (data : Bytes) {b : Nat} {m : Mark}
    (hj : .judged b m ∈ (p.walk kit.decimals (.fresh p) data).2.trail) : ∃ v, m = .value v := by
  have judged {w : Walker} (he : (p.start data).Extends w) (hj : .judged b m ∈ w.trail) :
      ∃ v, m = .value v := by
    obtain ⟨events, ht, hall⟩ := he
    rw [ht, show (p.start data).trail = [] from rfl, List.append_nil] at hj
    exact (hall _ hj).2
  exact h.walk_meets data (Q := fun r => .judged b m ∈ r.2.trail → ∃ v, m = .value v)
    (fun _ _ he _ => judged he) (fun _ _ _ he => judged he) hj

/-- **Once a walk over any bytes is decided** nothing more is done, but for one look at what follows
    the document. -/
theorem Compiled.accounted (h : p.Compiled kit es) (data : Bytes) :
    Accounted (p.walk kit.decimals (.fresh p) data).2.trail :=
  Pass.accounted_document (c := p.course kit data) h.tree h.fits (open_start _)

/-! ## 3. Well-formed documents -/

theorem Compiled.stands (h : p.Compiled kit es) (told : Told) (d : Doc) :
    Stands (p.course kit data) none told (p.scene kit es data d) (· ∈ p.root.slots)
      (p.start data) where
  fit := h.fit_start
  stall := rfl
  right := by
    refine ⟨fun j b _ hj => ?_, faithful_nil⟩
    rw [start, Walker.fresh, State.get_fresh] at hj
    cases hj
  lasts _ _ := trivial
  consistent := Tree.consistent_truth h.tree _
  apart _ := False.elim
  held _ := False.elim
  unread _ _ := rfl
  lies _ _ := nofun

/-- **A walk over a well-formed document** ends well. Then each expression has the truth value that
    is made of it, and every slot that was looked at held what was expected. -/
theorem Compiled.walk_right (h : p.Compiled kit es) (hd : d.Whole data) {told : Told}
    (htells : p.root.Tells told (p.scene kit es data d) (some d)) :
    (p.walk kit.decimals (.fresh p) data).1 = .ok () ∧
      (∀ e b, (e, b) ∈ es.zip p.buckets → (p.walk kit.decimals (.fresh p) data).2.state.get b =
        .value (e.exact kit data (fun _ => none) Variable.root d)) ∧
      Faithful told (p.walk kit.decimals (.fresh p) data).2.trail := by
  have hpoised : Poised (p.course kit data) told (p.scene kit es data d) (some d) p.root
      (fun _ => none) (p.start data) := .inr ⟨h.means, htells, fun s _ _ => held_start s⟩
  have hmeets := Walk.meets_document (s := p.setting kit.decimals data) h.fits h.tidy rfl rfl
    (h.stands told d) hpoised hd rfl h.bucket_of_single h.rests
  have answers {w : Walker}
      (hs : Settled (p.course kit data) told (p.scene kit es data d).truth p.buckets w) :
      (∀ e b, (e, b) ∈ es.zip p.buckets → w.state.get b =
        .value (e.exact kit data (fun _ => none) Variable.root d)) ∧ Faithful told w.trail :=
    ⟨fun e b hp => by
      have hb := (List.of_mem_zip hp).2
      rw [hs.value hb (h.top b hb), h.truth_eq hp], hs.right.faithful⟩
  unfold Walk.Meets at hmeets
  rw [h.walk_eq]
  split at hmeets
  · next heq =>
    rw [heq]
    exact ⟨rfl, answers hmeets⟩
  · next halt w heq =>
    obtain ⟨rfl, hs⟩ := hmeets
    rw [heq]
    exact ⟨rfl, answers hs⟩

end Plan

/-! ## 4. Matchers -/

namespace Matcher

/-- What a fresh matcher comes to. -/
theorem run_fresh (p : Plan) (D : Decimals) (data : Bytes) :
    (fresh p).run D data = ((p.walk D (.fresh p) data).1.map fun _ =>
      p.buckets.any (p.walk D (.fresh p) data).2.state.isTrue,
      { fresh p with walker := (p.walk D (.fresh p) data).2, used := true }) := rfl

end Matcher

namespace Plan.Compiled

/-- Nobody expects anything of the slots. -/
theorem walk_values (h : p.Compiled kit es) (hd : d.Whole data) :
    (p.walk kit.decimals (.fresh p) data).1 = .ok () ∧ ∀ e b, (e, b) ∈ es.zip p.buckets →
      (p.walk kit.decimals (.fresh p) data).2.state.isTrue b =
        e.exact kit data (fun _ => none) Variable.root d := by
  obtain ⟨hok, hvalue, -⟩ := h.walk_right hd (p.root.tells_true _ _)
  refine ⟨hok, fun e b hp => ?_⟩
  rw [Bool.eq_iff_iff, State.isTrue_iff, hvalue e b hp]
  exact ⟨Mark.value.inj, congrArg _⟩

/-- **A fresh matcher tells of each expression what is made of it.** -/
theorem isTrueAt (h : p.Compiled kit es) (hd : d.Whole data) {i : Nat} {e : Expr}
    (he : es[i]? = some e) : ((Matcher.fresh p).run kit.decimals data).2.isTrueAt i =
      e.exact kit data (fun _ => none) Variable.root d := by
  obtain ⟨hi, rfl⟩ := List.getElem?_eq_some_iff.mp he
  have hi' : i < p.buckets.length := h.length_buckets ▸ hi
  rw [← (h.walk_values hd).2 _ _ (h.mem_zip hi), Matcher.run_fresh, Matcher.isTrueAt]
  simp only [Matcher.fresh, List.getElem?_eq_getElem hi', List.get_eq_getElem]

/-- It tells of all of them whether any is true. -/
theorem test_eq (h : p.Compiled kit es) (hd : d.Whole data) :
    p.test kit.decimals data =
      .ok (es.any fun e => e.exact kit data (fun _ => none) Variable.root d) := by
  obtain ⟨hok, hvalue⟩ := h.walk_values hd
  rw [Plan.test, Matcher.run_fresh, hok]
  refine congrArg Except.ok ?_
  rw [Bool.eq_iff_iff, List.any_eq_true, List.any_eq_true]
  constructor
  · rintro ⟨b, hb, ht⟩
    obtain ⟨e, hp⟩ := h.expr_of_bucket hb
    exact ⟨e, (List.of_mem_zip hp).1, (hvalue e b hp) ▸ ht⟩
  · rintro ⟨e, he, ht⟩
    obtain ⟨b, hp⟩ := h.bucket_of_expr he
    exact ⟨b, (List.of_mem_zip hp).2, (hvalue e b hp).trans ht⟩

end Plan.Compiled

end Sift
