import Sift.Proofs.Matching
import Sift.Proofs.Order.Verdicts

/-!
# Walks of a plan and of what it is in another order

A compiled plan and what it is in another order are followed in lockstep, over any bytes. So where
both walks end well, they have the same truth values (`Plan.Compiled.go_together`).
-/

namespace Sift

open Resolution

variable {c : Course} {s : Setting} {k : Outlook} {w w' : Walker} {n n' : Node}

/-! ## 1. Documents -/

/-- **Two walks over a document** that follow nodes in lockstep come to values that go with each
    other, if both end or are settled. -/
theorem Node.Lockstep.document (h : n.Lockstep c s k n') (hv : s.bound = c.data.length + 1)
    (hn : n.Fits c k.stall) (hn' : n'.Fits c k.stall) (hw : Twins c s k w w') :
    Pair (Replays c s k.waits) s w w' (Walk.document n.halting) (Walk.document n'.halting)
      (fun _ => Struck c k) (Struck c k) := by
  have first {w : Walker} (hfit : w.Fit c) : Walk.Meets s w Walk.opening
      (fun token v => token.kind ≠ .finish → token.offset < v.cursor.position)
      fun _ _ => True := by
    have safe : Walk.Safe c s MatchError.OfDocument (fun _ => False) (fun _ => False) w
        Walk.opening _ fun _ => False := Walk.safe_opening hfit
    exact Walk.Meets.mono safe (fun _ _ h => h.2.2.2) fun _ _ _ => trivial
  refine Pair.next (((hw.steady .opening).and (first hw.under.fit) (first hw.under'.fit)).mono
    (fun _ _ _ h => h) fun _ _ h => h.1) fun token v v' hvv => ?_
  obtain ⟨hvv, ho, ho'⟩ := hvv
  refine Pair.bind (((h.read v v' token hvv).and
    ((Walk.secure hv n _ hn).read v token hvv.under.fit hvv.under.stall ho)
    ((Walk.secure hv n' _ hn').read v' token hvv.under'.fit hvv.under'.stall ho')).mono
    (fun _ _ _ h => h) fun _ _ h => h.1) fun u x x' hx => ?_
  obtain ⟨hx, ⟨-, -, hlt, -⟩, -⟩ := hx
  refine Pair.next (((hx.steady .note).and
    (Walk.meets_note (Q := fun _ y => y.cursor = x.cursor) (H := fun _ _ => True) rfl)
    (Walk.meets_note (Q := fun _ _ => True) (H := fun _ _ => True) trivial)).mono
    (fun _ _ _ h => h) fun _ _ h => h.1) fun _ y y' hy => ?_
  obtain ⟨hy, hcursor, -⟩ := hy
  have finished : Pair (Replays c s k.waits) s y y' (Walk.settles (n.halting.finish token u))
      (Walk.settles (n'.halting.finish token u))
      (fun _ z z' => Struck c k z z' ∧ z.cursor.Same z'.cursor) Never :=
    Pair.caught ((h.finish y y' token u hy (by rw [hcursor]; exact hlt)).mono
      (fun _ _ _ hz => ⟨hz.agree, hz.cursor⟩) fun _ _ hz => hz)
  refine finished.next fun _ z z' hz => ?_
  refine (Steady.closing.pair hz.2).mono (fun _ u u' hu => ?_) fun _ _ h => h.elim
  rw [Struck, hu.marks.state, hu.marks'.state]
  exact hz.1

/-! ## 2. Compiled plans -/

namespace Plan

variable {kit : Toolkit} {p p' : Plan} {es : List Expr} {data : Bytes}

/-- What can be seen outside of all loops. -/
def outlook (p : Plan) : Outlook :=
  ⟨none, (· ∈ p.root.loopBuckets), p.sight, p.root.WaitsSo⟩

theorem Compiled.belongs (h : p.Compiled kit es) :
    p.root.Belongs (p.course kit data) p.outlook where
  fits := h.fits
  sees := h.sees
  tidy := h.tidy
  clear _ hb _ hi := h.fits.apart hi hb
  own _ hb := hb
  waits l hl := ⟨l, hl, .refl l⟩

/-- The expressions can be seen. -/
theorem Compiled.view (h : p.Compiled kit es) {b : Nat} (hb : b ∈ p.buckets) :
    p.outlook.View (p.course kit data) b := by
  refine ⟨?_, nofun, fun i hi => Bool.eq_false_iff.mpr fun hbelow => ?_⟩
  · obtain ⟨_, hp⟩ := h.expr_of_bucket hb
    exact (h.laid_of_mem hp).lt
  · -- loops are marked, and nothing that is marked stands above an expression
    have hfits : p.root.Fits (p.course kit data) none := h.fits
    exact (h.top b hb i hbelow).2 (hfits.loopBucket i hi).1.marked

/-- **Outside of all loops** it is the expressions that settle a walk. -/
theorem Compiled.apt (h : p.Compiled kit es) :
    p.outlook.Apt (p.course kit data) (p.setting kit.decimals data) where
  barrier b hb := by
    have hfits : p.root.Fits (p.course kit data) none := h.fits
    exact (hfits.loopBucket b hb).2
  watch st st' ht ht' hst hst' hknown hset := by
    have zero : p.outlook.View (p.course kit data) 0 := by
      refine ⟨h.tree.pos, nofun, fun i _ => Bool.eq_false_iff.mpr fun hb => ?_⟩
      exact absurd (Tree.isBelow_iff.mp hb).1 (Nat.not_lt_zero i)
    simp only [Setting.isSettled, hst, hst', outlook, Option.isNone_none, Bool.true_and] at hset ⊢
    split at hset
    · next hlen =>
      rw [if_pos hlen]
      refine List.all_eq_true.mpr fun b hb => State.isResolved_iff.mpr (hknown b (h.view hb) ?_)
      exact State.isResolved_iff.mp (List.all_eq_true.mp hset b hb)
    · next hlen =>
      rw [if_neg hlen]
      simp only [State.isSettled, hst, hst', outlook, State.isResolved_iff] at hset ⊢
      exact hknown 0 zero hset

/-- In another order the same can be seen. -/
theorem Reordered.outlook (h : p.Reordered p') : p'.outlook = p.outlook := by
  have hloops : (· ∈ p'.root.loopBuckets) = (· ∈ p.root.loopBuckets) :=
    funext fun _ => propext h.root.mem_loopBuckets
  have hsight : p'.sight = p.sight := funext fun _ =>
    propext (exists_congr fun _ => h.root.places_iff)
  have hwaits : p'.root.WaitsSo = p.root.WaitsSo := funext fun _ => propext h.root.waitsSo_iff
  rw [Plan.outlook, Plan.outlook, hloops, hsight, hwaits]

theorem Reordered.course (h : p.Reordered p') : p'.course kit data = p.course kit data := by
  rw [Plan.course, Plan.course, h.tree, h.buckets, h.slots]

theorem Reordered.start (h : p.Reordered p') : p'.start data = p.start data := by
  rw [Plan.start, Plan.start, Walker.fresh, Walker.fresh, h.tree, h.slots]

theorem Compiled.twins_start (h : p.Compiled kit es) :
    Twins (p.course kit data) (p.setting kit.decimals data) p.outlook (p.start data)
      (p.start data) := by
  have under : (p.start data).Under (p.course kit data) p.outlook := ⟨h.fit_start, rfl, nofun⟩
  refine ⟨⟨under, under, fun _ _ => rfl, fun _ _ => .rfl, fun j _ u u' hu => ?_⟩, ⟨rfl, rfl⟩,
    (open_start _).2, (open_start _).2⟩
  rw [Plan.start, Walker.fresh, State.get_fresh] at hu
  cases hu

/-- The walks of a plan and of what it is in another order go with each other. -/
theorem Compiled.pair_document (h : p.Compiled kit es) (hr : p.Reordered p') (data : Bytes) :
    Pair (Replays (p.course kit data) (p.setting kit.decimals data) p.root.WaitsSo)
      (p.setting kit.decimals data) (p.start data) (p.start data)
      (Walk.document p.root.halting) (Walk.document p'.root.halting)
      (fun _ => Struck (p.course kit data) p.outlook) (Struck (p.course kit data) p.outlook) := by
  have hbelongs' : p'.root.Belongs (p'.course kit data) p'.outlook := (h.reordered hr).belongs
  rw [hr.course, hr.outlook] at hbelongs'
  have hlock := Node.lockstep (c := p.course kit data) (s := p.setting kit.decimals data) rfl
    h.tree p.root h.apt hr.root h.belongs hbelongs'
  exact hlock.document rfl h.fits hbelongs'.fits h.twins_start

/-- A walk of the plan breaks off in a loop that waits. -/
def BreaksOff (p : Plan) (kit : Toolkit) (data : Bytes) : Prop :=
  (∃ e, (p.walk kit.decimals (.fresh p) data).1 = .error e) ∧
    Replays (p.course kit data) (p.setting kit.decimals data) p.root.WaitsSo
      (p.walk kit.decimals (.fresh p) data).2

/-- **What comes of two walks** that take the children in different orders: both end with the same
    truth values, or both fail, unless one of them breaks off in a loop that waits. -/
inductive GoTogether (p p' : Plan) (kit : Toolkit) (data : Bytes) : Prop
  | ends (ok : (p.walk kit.decimals (.fresh p) data).1 = .ok ())
      (ok' : (p'.walk kit.decimals (.fresh p') data).1 = .ok ())
      (same : ∀ b ∈ p.buckets, (p'.walk kit.decimals (.fresh p') data).2.state.get b =
        (p.walk kit.decimals (.fresh p) data).2.state.get b)
  | fails {e e' : MatchError} (error : (p.walk kit.decimals (.fresh p) data).1 = .error e)
      (error' : (p'.walk kit.decimals (.fresh p') data).1 = .error e')
  | first (h : p.BreaksOff kit data)
  | second (h : p'.BreaksOff kit data)

theorem Compiled.go_together (h : p.Compiled kit es) (hr : p.Reordered p') (data : Bytes) :
    GoTogether p p' kit data := by
  have h' := h.reordered hr
  have hpair := h.pair_document hr data
  have hvalue := h.complete data
  have hvalue' := h'.complete data
  have hsetting : p'.setting kit.decimals data = p.setting kit.decimals data := by
    rw [Plan.setting, Plan.setting, hr.buckets]
  have hwaits : p'.root.WaitsSo = p.root.WaitsSo := funext fun _ => propext hr.root.waitsSo_iff
  have hwalk := @Compiled.walk_eq kit p es data h
  have hwalk' := @Compiled.walk_eq kit p' es data h'
  rw [hsetting, hr.start] at hwalk'
  rw [hr.buckets] at hvalue'
  -- what both have a value for has the same
  have ends {v v' : Walker} (hs : Struck (p.course kit data) p.outlook v v')
      (hv : p.walk kit.decimals (.fresh p) data = (.ok (), v))
      (hv' : p'.walk kit.decimals (.fresh p') data = (.ok (), v')) :
      GoTogether p p' kit data := by
    rw [hv] at hvalue
    rw [hv'] at hvalue'
    refine .ends (by rw [hv]) (by rw [hv']) fun b hb => ?_
    obtain ⟨u, hu⟩ := hvalue rfl b hb
    obtain ⟨u', hu'⟩ := hvalue' rfl b hb
    rw [hv, hv', hu, hu', hs b (h.view hb) u u' hu hu']
  unfold Pair at hpair
  generalize (Walk.document p.root.halting).outcome _ _ = r at *
  generalize (Walk.document p'.root.halting).outcome _ _ = r' at *
  cases hpair with
  | ends hs => exact ends hs hwalk hwalk'
  | settles hs => exact ends hs hwalk hwalk'
  | fails => exact .fails (by rw [hwalk]) (by rw [hwalk'])
  | first hf => exact .first ⟨⟨_, by rw [hwalk]⟩, by rw [hwalk]; exact hf⟩
  | second hf =>
    refine .second ⟨⟨_, by rw [hwalk']⟩, ?_⟩
    rw [hwalk', hr.course, hsetting, hwaits]
    exact hf

end Plan

end Sift
