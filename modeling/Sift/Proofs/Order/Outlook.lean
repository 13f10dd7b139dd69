import Sift.Proofs.Plan.Reordered
import Sift.Proofs.Plan.Sight
import Sift.Proofs.Resolution.Evidence
import Sift.Proofs.Walk.Safety

/-!
# What can be seen in a loop, or outside of all

An `Outlook` is what is the same wherever a walk is in one loop, or in none: the loop itself, the
loops in its body, and the slots that can be seen. What parts of a node need to be handled under an
outlook is that they belong there (`Node.Belongs`, `Loop.Belongs`, `Test.Belongs`).

A loop is run up to its verdict first (`Loop.tally`). Nothing is left of that but the verdict
(`Left`), and so what is done under an outlook besides reading is to mark buckets: `Sown` says that a
walk has done no more than that, and with which values.
-/

namespace Sift

open Resolution

variable {c : Course} {s : Setting} {w w' w'' : Walker}

/-! ## 1. The verdict of a loop -/

/-- Runs a loop over the array whose bracket has been read, up to its verdict. -/
def Loop.tally (l : Loop) : Walk Walk.Verdict := do
  let outer ← Walk.exchangeStall (some l.bucket)
  let bodyBucket ← Walk.bodyOf l.bucket
  let verdict ← Walk.elements l.bucket bodyBucket l.mode l.locals l.body.halting
  Walk.leaveLoop l.bucket outer
  return verdict

/-- Marks the bucket of a loop with its verdict, and passes what is left of the array. -/
def Walk.conclude (bucket : Nat) (verdict : Walk.Verdict) : Walk Unit := do
  Walk.mark bucket verdict.answer
  Walk.passArray verdict.decider

theorem Loop.run_eq (l : Loop) : l.halting.run = l.tally >>= Walk.conclude l.bucket := by
  rw [Loop.halting_eq]
  simp [Walk.runLoop, Loop.tally, Walk.conclude]

/-- **What is left of a loop that has come to a verdict**: nothing below it is known any more, and
    all else is as it was. -/
structure Left (c : Course) (l : Loop) (w : Walker) (v : Walk.Verdict) (w' : Walker) : Prop where
  fit : w'.Fit c
  stall : w'.state.stall = w.state.stall
  unknown : w'.state.get l.bucket = .unknown
  outside : ∀ j, c.tree.isBelow l.bucket j = false → w'.state.get j = w.state.get j
  slots : ∀ i, i ∉ l.body.slots → w'.slots[i]? = w.slots[i]?
  decided : ∀ t, v.decider = some t → t.offset ≤ c.data.length

namespace Walk

theorem meets_tally {l : Loop} (h : Enters c l w) (hb : Secure c s (some l.bucket) l.body)
    (hbound : s.bound = c.data.length + 1) :
    Meets s w l.tally (Left c l w) (Fails MatchError.OfDocument w) := by
  refine Meets.bind (Q := fun outer w₁ => outer = w.state.stall ∧
    w₁ = { w with state := w.state.withStall (some l.bucket) })
    (meets_modifyGet ⟨rfl, rfl⟩) fun outer w₁ h₁ => ?_
  obtain ⟨rfl, hw₁⟩ := h₁
  have hi₁ := h.enter
  rw [← hw₁] at hi₁
  refine (meets_bodyOf hi₁ h).bind fun body w₂ h₂ => ?_
  obtain ⟨rfl, rfl⟩ := h₂
  refine (meets_elements h hb hbound hi₁ (by rw [hw₁])).bind fun verdict w₃ h₃ => ?_
  refine Meets.bind (meets_modify (Q := fun _ w₄ => w₄ = _) rfl) fun _ w₄ hw₄ => ?_
  obtain ⟨hm₄, hfit₄, hu₄⟩ := h₃.loop.leave h hw₄
  refine meets_pure ⟨hfit₄, hm₄.stall, hu₄, fun j hj => ?_, hm₄.slots, fun t ht => (h₃.decided t ht).2⟩
  rw [hw₄]
  exact (h₃.loop.reset h).outside j hj

end Walk

/-! ## 2. Outlooks -/

/-- What is the same wherever a walk is in one loop, or in none: the loop, the buckets of the loops
    in its body, and the slots that can be seen. -/
structure Outlook where
  stall : Option Nat
  loops : Nat → Prop
  sight : Nat → Prop
  /-- The loops that wait for an array to be captured, here or further in, whatever the order of the
      children in their bodies. -/
  waits : Loop → Prop

/-- The nodes of the tree that are not inside of a loop further in. -/
def Outlook.View (c : Course) (k : Outlook) (j : Nat) : Prop := c.tree.View k.stall k.loops j

/-- **A walk has broken off in a loop over an array that had been captured**: it had turned to the
    array for a loop that waits, and running that has failed. All is as it was then, but for the place
    that the cursor stands at. -/
inductive Replays (c : Course) (s : Setting) (waits : Loop → Prop) : Walker → Prop
  | mk {l : Loop} {slot : Nat} {span : Span} {earlier : List Event} {x v : Walker} {e : MatchError}
      {cursor : Cursor} (loop : waits l) (target : l.target = .slot slot)
      (opens : span.opensArray c.data = true)
      (turned : x.trail = .fetched l.bucket slot (some span) :: earlier)
      (start : x.cursor.position = span.offset + 1)
      (fails : l.runner.run.outcome s x = (.error e, v)) : Replays c s waits { v with cursor }

/-- **An outlook shows what settles a walk**, and its loops are barriers. -/
structure Outlook.Apt (c : Course) (s : Setting) (k : Outlook) : Prop where
  barrier : ∀ b, k.loops b → (c.tree.node b).kind = .barrier
  watch : ∀ st st' : State, st.tree = c.tree → st'.tree = c.tree → st.stall = k.stall →
    st'.stall = k.stall → (∀ j, k.View c j → st'.get j ≠ .unknown → st.get j ≠ .unknown) →
    s.isSettled st' = true → s.isSettled st = true

/-- A walker under an outlook. The loop that it is in is unanswered. -/
structure Walker.Under (c : Course) (k : Outlook) (w : Walker) : Prop where
  fit : w.Fit c
  stall : w.state.stall = k.stall
  waiting : ∀ i, k.stall = some i → w.state.get i = .unknown

/-- **Nothing has been done but to mark buckets** with values of which `E` holds. -/
structure Sown (c : Course) (k : Outlook) (E : Nat → Bool → Prop) (w w' : Walker) : Prop where
  under : w'.Under c k
  slots : ∀ i, k.sight i → w'.slots[i]? = w.slots[i]?
  known : ∀ j, k.View c j → w.Known j → w'.state.get j = w.state.get j
  evidence : ∀ j u, k.View c j → w'.state.get j = .value u →
    w.Known j ∨ E j u ∨ w'.state.combine? j = some u

theorem Walker.Under.markable {k : Outlook} (h : w.Under c k) {b : Nat} (hb : c.Bucket k.stall b) :
    w.Markable c b := by
  rw [Walker.Markable, h.stall]
  exact hb

/-- Only the cursor is different. -/
theorem Walker.Under.of_same {k : Outlook} (h : w.Under c k) (hs : Walk.SameMarks w w')
    (hfit : w'.Fit c) : w'.Under c k :=
  ⟨hfit, by rw [hs.state, h.stall], by rw [hs.state]; exact h.waiting⟩

section Sown

variable {k : Outlook} {E E' : Nat → Bool → Prop}

theorem known_of_value {j : Nat} {u : Bool} (h : w.state.get j = .value u) : w.Known j := by
  rw [Walker.Known, h]
  exact Mark.noConfusion

theorem Sown.refl (h : w.Under c k) : Sown c k E w w :=
  ⟨h, fun _ _ => rfl, fun _ _ _ => rfl, fun _ _ _ hu => .inl (known_of_value hu)⟩

theorem Sown.mono (h : Sown c k E w w') (hE : ∀ j u, E j u → E' j u) : Sown c k E' w w' :=
  ⟨h.under, h.slots, h.known, fun j u hj hu => (h.evidence j u hj hu).imp_right (.imp_left (hE j u))⟩

/-- **What is known stays known.** -/
theorem Sown.known_of_known (h : Sown c k E w w') {j : Nat} (hj : k.View c j) (hk : w.Known j) :
    w'.Known j := by
  rw [Walker.Known, h.known j hj hk]
  exact hk

theorem Sown.trans (hk : k.Apt c s) (h : Sown c k E w w') (h' : Sown c k E' w' w'') :
    Sown c k (fun j u => E j u ∨ E' j u) w w'' where
  under := h'.under
  slots i hi := (h'.slots i hi).trans (h.slots i hi)
  known j hj hw := (h'.known j hj (h.known_of_known hj hw)).trans (h.known j hj hw)
  evidence j u hj hu := by
    rcases h'.evidence j u hj hu with hw' | he | hc
    · rw [h'.known j hj hw'] at hu
      rcases h.evidence j u hj hu with hw | he | hc
      · exact .inl hw
      · exact .inr (.inl (.inl he))
      -- its children have kept their values since
      · refine .inr (.inr ?_)
        have ht := h.under.fit.tree
        refine State.combine?_mono h.under.fit.good.valid (h'.under.fit.tree.trans ht.symm)
          (ht ▸ hj.lt) (fun i hi h0 v hv => ?_) hc
        rw [ht] at hi
        have hview := hj.child (ht ▸ h.under.fit.good.valid) hk.barrier
          (ht ▸ State.kind_of_combine? hc) hi h0
        rw [h'.known i hview (known_of_value hv), hv]
    · exact .inr (.inl (.inr he))
    · exact .inr (.inr hc)

theorem Sown.of_same (h : Sown c k E w w') (hs : Walk.SameMarks w' w'') (hfit : w''.Fit c) :
    Sown c k E w w'' where
  under := h.under.of_same hs hfit
  slots i hi := by rw [hs.slots, h.slots i hi]
  known j := by rw [hs.state]; exact h.known j
  evidence j u := by rw [hs.state]; exact h.evidence j u

theorem Sown.after_same (hs : Walk.SameMarks w w') (h : Sown c k E w' w'') : Sown c k E w w'' where
  under := h.under
  slots i hi := by rw [h.slots i hi, hs.slots]
  known j hj hk := by
    rw [Walker.Known, ← hs.state] at hk
    rw [h.known j hj hk, hs.state]
  evidence j u hj hu := by
    have he := h.evidence j u hj hu
    rwa [Walker.Known, hs.state] at he

/-- **A mark sows its value**, and nothing else. -/
theorem Sown.of_mark {b : Nat} {v : Bool} (hb : c.Bucket k.stall b) (hw : w'.Under c k)
    (same : ∀ j, k.View c j → w'.state.get j = w.state.get j)
    (slots : ∀ i, k.sight i → w'.slots[i]? = w.slots[i]?) (hm : Walk.Marked b v w' w'')
    (hfit : w''.Fit c) : Sown c k (fun j u => j = b ∧ u = v) w w'' := by
  have ht := hw.fit.tree
  obtain ⟨st, hst, -, hch, -⟩ := State.mark_spec hw.fit.good (by rw [ht]; exact hb.lt)
    (fun i hi => by rw [ht]; exact hb.below i (hw.stall ▸ hi)) hm.unknown (fun _ => hb.marked) v
  obtain rfl : st = w''.state := Except.ok.inj (hst.symm.trans hm.state)
  refine ⟨⟨hfit, hch.stall.trans hw.stall, fun i hi => ?_⟩, fun i hi => ?_, fun j hj hk => ?_,
    fun j u hj hu => ?_⟩
  · rw [hch.outside i fun h => ?_, hw.waiting i hi]
    have := h i (hw.stall.trans hi)
    exact absurd (Tree.isBelow_iff.mp this).1 (Nat.lt_irrefl _)
  · rw [hm.slots, slots i hi]
  · rw [hch.known j (by rw [same j hj]; exact hk), same j hj]
  · rcases State.evidence_mark hw.fit.good.valid (by rw [ht]; exact hb.lt) hm.state hu with h | h | h
    · rw [same j hj] at h
      exact .inl (known_of_value h)
    · exact .inr (.inl h)
    · exact .inr (.inr h)

end Sown

/-! ## 3. What belongs under an outlook -/

/-- A test whose bucket and whose slots can be seen. -/
structure Test.Belongs (c : Course) (k : Outlook) (t : Test) : Prop where
  bucket : c.Bucket k.stall t.bucket
  leaf : (c.tree.node t.bucket).kind = .leaf
  clear : c.Clear k.loops t.bucket
  reads : ∀ i ∈ t.check.slots, i < c.count ∧ k.sight i

/-- A loop that is one of those of the outlook and captures nothing that can be seen. -/
structure Loop.Belongs (c : Course) (k : Outlook) (l : Loop) : Prop where
  fits : c.LoopFits k.stall l
  body : l.body.Fits c (some l.bucket)
  locals : ∀ i ∈ l.locals, i ∈ l.body.slots
  emptied : ∀ i path, (i, path) ∈ l.body.places → i ∈ l.locals
  hidden : ∀ i ∈ l.body.slots, ¬ k.sight i
  own : k.loops l.bucket
  clear : c.Clear k.loops l.bucket

/-- **A node under an outlook.** -/
structure Node.Belongs (c : Course) (k : Outlook) (n : Node) : Prop where
  fits : n.Fits c k.stall
  sees : n.Sees c.tree k.sight
  tidy : n.Tidy
  clear : ∀ b ∈ n.buckets, c.Clear k.loops b
  own : ∀ b ∈ n.loopBuckets, k.loops b
  waits : ∀ l, Node.Waits l n → k.waits l

/-- The outlook in the body of a loop. -/
def Loop.outlook (k : Outlook) (l : Loop) : Outlook :=
  ⟨some l.bucket, (· ∈ l.body.loopBuckets), l.sight k.sight, k.waits⟩

/-- A bucket that can be seen. -/
theorem Course.Bucket.view {k : Outlook} {b : Nat} (h : c.Bucket k.stall b)
    (hc : c.Clear k.loops b) : k.View c b := ⟨h.lt, h.below, hc⟩

/-- **A loop that has come to a verdict** has left all that can be seen as it was. -/
theorem Loop.Belongs.left {k : Outlook} {l : Loop} {v : Walk.Verdict} (h : l.Belongs c k)
    (hw : w.Under c k) (hl : Left c l w v w') :
    w'.Under c k ∧ (∀ j, k.View c j → w'.state.get j = w.state.get j) ∧
      ∀ i, k.sight i → w'.slots[i]? = w.slots[i]? := by
  refine ⟨⟨hl.fit, hl.stall.trans hw.stall, fun i hi => ?_⟩, fun j hj => ?_, fun i hi => ?_⟩
  · -- the loop lies below the one that it is run in
    have hlt := (Tree.isBelow_iff.mp (h.fits.bucket.below i hi)).1
    rw [hl.outside i (Bool.eq_false_iff.mpr fun hb => ?_), hw.waiting i hi]
    exact absurd (Tree.isBelow_iff.mp hb).1 (Nat.lt_asymm hlt)
  · exact hl.outside j (hj.clear _ h.own)
  · exact hl.slots i fun hb => h.hidden i hb hi

theorem Loop.Belongs.enters {k : Outlook} {l : Loop} (h : l.Belongs c k) (hw : w.Under c k)
    (hu : w.state.get l.bucket = .unknown) : Enters c l w :=
  ⟨hw.fit, hw.stall.symm ▸ h.fits, h.body, h.locals, hu⟩

namespace Node.Belongs

variable {k : Outlook} {n : Node}

theorem test (h : n.Belongs c k) {t : Test} (ht : t ∈ n.allTests) : t.Belongs c k where
  bucket := (h.fits.tests ht).1
  leaf := (h.sees.test ht).leaf
  clear := h.clear _ (mem_buckets.mpr (.inl ⟨t, ht, rfl⟩))
  reads i hi := ⟨(h.fits.tests ht).2 i hi, (h.sees.test ht).reads i hi⟩

theorem loop (h : n.Belongs c k) {l : Loop} (hl : l ∈ n.allLoops) : l.Belongs c k where
  fits := (h.fits.loop hl).1
  body := (h.fits.loop hl).2.1
  locals := (h.fits.loop hl).2.2
  emptied _ path hp := (h.tidy.locals hl).mpr ⟨path, hp⟩
  hidden := h.sees.hidden hl
  own := h.own _ (mem_loopBuckets.mpr (.inl ⟨l, hl, rfl⟩))
  clear := h.clear _ (mem_buckets.mpr (.inr (.inl ⟨l, hl, rfl⟩)))

theorem child (h : n.Belongs c k) {child : String × Node} (hc : child ∈ n.children) :
    child.2.Belongs c k where
  fits := h.fits.child hc
  sees := h.sees.child hc
  tidy := h.tidy.child hc
  clear b hb := h.clear b (mem_buckets.mpr (.inr (.inr ⟨child, hc, hb⟩)))
  own b hb := h.own b (mem_loopBuckets.mpr (.inr ⟨child, hc, hb⟩))
  waits l hl := h.waits l (.child hc hl)

/-- **The body of a loop** is a node under the outlook of the loop. -/
theorem body (h : n.Belongs c k) {l : Loop} (hl : l ∈ n.allLoops) :
    l.body.Belongs c (l.outlook k) where
  fits := (h.fits.loop hl).2.1
  sees := h.sees.body hl
  tidy := h.tidy.body hl
  clear _ hb _ hi := (h.fits.loop hl).2.1.apart hi hb
  own _ hb := hb
  waits l' hl' := h.waits l' (.body hl hl')

end Node.Belongs

/-- The loops of a node are barriers below the loop that it belongs to. -/
theorem Node.Fits.loopBucket {n : Node} : ∀ {stall : Option Nat}, n.Fits c stall →
    ∀ b ∈ n.loopBuckets, c.Bucket stall b ∧ (c.tree.node b).kind = .barrier := by
  induction n using Node.induct with
  | h n children _ _ =>
    intro stall h b hb
    rcases Node.mem_loopBuckets.mp hb with ⟨l, hl, rfl⟩ | ⟨child, hc, hb⟩
    · exact ⟨(h.loop hl).1.bucket, (h.loop hl).1.kind⟩
    · exact children child hc (h.child hc) b hb

/-- The body of a loop can be seen in the loop. -/
theorem Loop.Belongs.view_body {k : Outlook} {l : Loop} (h : l.Belongs c k) (hv : c.tree.Valid) :
    (l.outlook k).View c (c.tree.node l.bucket).left := by
  have hlt := hv.first_child h.fits.bucket.lt (.inr h.fits.kind)
  obtain ⟨hbelow, -, hchild⟩ := hv.child_below h.fits.bucket.lt (.inl rfl) (by omega)
  refine ⟨hlt.2, fun i hi => ?_, fun b hb => Bool.eq_false_iff.mpr fun hbc => ?_⟩
  · cases hi
    exact hbelow
  · -- only the loop is above its body, and the loops in its body are not above it
    have hp := hv.parent_of_below hbc
    rw [hchild.parent] at hp
    have hin := Tree.isBelow_iff.mp ((h.body.loopBucket b hb).1.below _ rfl)
    rcases hp with hp | hp
    · omega
    · have := Tree.isBelow_iff.mp hp
      omega

/-- **In a loop** it is the body that settles an element. -/
theorem Loop.Belongs.apt {k : Outlook} {l : Loop} (h : l.Belongs c k) (hv : c.tree.Valid) :
    (l.outlook k).Apt c s where
  barrier b hb := (h.body.loopBucket b hb).2
  watch st st' ht ht' hst hst' hknown hset := by
    have hview := h.view_body hv
    simp only [Setting.isSettled, State.isSettled, hst, hst', ht, ht', Loop.outlook,
      Option.isNone_some, Bool.false_and, Bool.false_eq_true, if_false,
      State.isResolved_iff] at hset ⊢
    exact hknown _ hview hset

end Sift
