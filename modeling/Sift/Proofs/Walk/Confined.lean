import Mathlib
import Sift.Standard
import Sift.Proofs.Walk.Turning
import Sift.Proofs.Walk.Landing
import Sift.Proofs.Resolution.Stalls
import Sift.Proofs.Plan.Correspondence
import Sift.Proofs.AnyBytes

/-!
# What a loop touches

A loop that comes to its end has touched only what is its own. The stall is what it was, slots have
changed only in its body, the marks outside of what lies below its bucket are those that marking the
bucket would have left, and each of its elements has begun with nothing known below the bucket and with
empty slots (`Plan.loop_confined`). The walker that the loop begins with may be any that has the shape
of the plan, the children may be in any order, and the bytes any.

* `Walker.Spared own turns`: how far a walker is from an earlier one under the same stall.
* `Confines`: a part of a walk leaves such a walker where it ends. It is put together as walks are.
* `Loop.Effect`: what a whole loop leaves, told of the body by `Confines` (`Loop.run_effect`). Seen from
  the loop around it this is `Spared` again, so `Node.confines` is an induction over the node.
-/

namespace Sift

open Resolution Walk

variable {α β : Type} {c : Course} {stall : Option Nat} {s : Setting} {w w' w'' : Walker}
  {own own' : Nat → Prop} {turns turns' : Nat → Array Mark → Slots → Prop}

/-! ## 1. Walkers that have changed little -/

/-- Where an event is that the loop at a bucket turns to an element, `turns` holds of the bucket and of
    the marks and slots at that moment. -/
def Event.Turning (turns : Nat → Array Mark → Slots → Prop) : Event → Prop
  | .began bucket _ marks slots => turns bucket marks slots
  | _ => True

/-- The trail has grown, and loops have turned to elements as told. -/
def Walker.Turned (turns : Nat → Array Mark → Slots → Prop) (w w' : Walker) : Prop :=
  ∃ events, w'.trail = events ++ w.trail ∧ ∀ e ∈ events, e.Turning turns

/-- **Little has changed**: marks only where the stall bounds them, and only these slots. -/
structure Walker.Spared (own : Nat → Prop) (turns : Nat → Array Mark → Slots → Prop)
    (w w' : Walker) : Prop extends w.SameShape w' where
  bounded : w.state.Bounded w'.state
  kept : ∀ i, ¬ own i → w'.slots[i]? = w.slots[i]?
  turned : w.Turned turns w'

/-- The walker has the tree of the course and the marks and slots for it, under this stall. -/
structure Walker.Placed (c : Course) (stall : Option Nat) (w : Walker) : Prop where
  tree : w.state.tree = c.tree
  marks : w.state.marks.size = c.tree.size
  slots : w.slots.size = c.count
  stall : w.state.stall = stall

namespace Walker

theorem Turned.refl (w : Walker) : w.Turned turns w := ⟨[], rfl, by simp⟩

theorem Turned.trans (h : w.Turned turns w') (h' : w'.Turned turns w'') : w.Turned turns w'' := by
  obtain ⟨es, ht, he⟩ := h
  obtain ⟨es', ht', he'⟩ := h'
  exact ⟨es' ++ es, by rw [ht', ht, List.append_assoc], fun e hm =>
    (List.mem_append.mp hm).elim (he' e) (he e)⟩

theorem Turned.mono (h : w.Turned turns w') (ht : ∀ b m l, turns b m l → turns' b m l) :
    w.Turned turns' w' := by
  obtain ⟨es, hes, he⟩ := h
  refine ⟨es, hes, fun e hm => ?_⟩
  have := he e hm
  cases e with
  | began b _ m l => exact ht b m l this
  | _ => trivial

theorem Spared.trans (h : w.Spared own turns w') (h' : w'.Spared own turns w'') :
    w.Spared own turns w'' :=
  ⟨h.toSameShape.trans h'.toSameShape, h.bounded.trans h'.bounded,
    fun i hi => (h'.kept i hi).trans (h.kept i hi), h.turned.trans h'.turned⟩

theorem Spared.mono (h : w.Spared own turns w') (hs : ∀ i, own i → own' i)
    (ht : ∀ b m l, turns b m l → turns' b m l) : w.Spared own' turns' w' :=
  ⟨h.toSameShape, h.bounded, fun i hi => h.kept i fun hi' => hi (hs i hi'), h.turned.mono ht⟩

theorem Placed.spared (h : w.Placed c stall) (hs : w.Spared own turns w') : w'.Placed c stall :=
  ⟨hs.tree.trans h.tree, hs.marks.trans h.marks, hs.slots.trans h.slots,
    hs.bounded.stall.trans h.stall⟩

/-- The document has been looked at: marks and slots are the same, and no loop has turned to an
    element. -/
structure Browsed (w w' : Walker) : Prop where
  state : w'.state = w.state
  slots : w'.slots = w.slots
  turned : w.Turned (fun _ _ _ => False) w'

theorem Browsed.spared (h : w.Browsed w') : w.Spared own turns w' where
  tree := by rw [h.state]
  marks := by rw [h.state]
  slots := by rw [h.slots]
  bounded := by
    rw [h.state]
    exact .refl _
  kept _ _ := by rw [h.slots]
  turned := h.turned.mono fun _ _ _ hf => hf.elim

theorem browsed_note {e : Event} (h : e.Turning fun _ _ _ => False) :
    w.Browsed { w with trail := e :: w.trail } := ⟨rfl, rfl, [e], rfl, by simpa using h⟩

end Walker

instance : Looking Walker.Browsed where
  refl w := ⟨rfl, rfl, .refl w⟩
  look {w e} h := Walker.browsed_note (by cases e <;> first | exact h | trivial)
  trans h h' := ⟨h'.state.trans h.state, h'.slots.trans h.slots, h.turned.trans h'.turned⟩

/-- **Going anywhere in the document** is looking at it. -/
theorem Keeps.browses : Roams (Keeping Walker.Browsed) where
  toComposes := composes
  step _ w := by
    rw [outcome_step]
    exact ⟨rfl, rfl, [.stepped], rfl, by simp [Event.Turning]⟩
  skipContainer _ w := by
    rw [outcome_skipContainer]
    exact ⟨rfl, rfl, [.skipped], rfl, by simp [Event.Turning]⟩
  seek _ := modify fun w => ⟨rfl, rfl, .refl w⟩

/-! ## 2. Parts that are confined -/

/-- **A part of a walk is confined**: under this stall it changes little where it ends. -/
def Confines (c : Course) (stall : Option Nat) (own : Nat → Prop)
    (turns : Nat → Array Mark → Slots → Prop) (α : Type) (m : Pass α) : Prop :=
  ∀ (s : Setting) (w : Walker), w.Placed c stall →
    Ends s w m fun _ w' => w.Spared own turns w'

namespace Confines

variable {m : Pass α}

theorem of_keeps (h : Keeps Walker.Browsed m) : Confines c stall own turns α m :=
  fun _ _ _ => h.ends.mono fun _ _ hb => hb.spared

theorem mono (h : Confines c stall own turns α m) (hs : ∀ i, own i → own' i)
    (ht : ∀ b m l, turns b m l → turns' b m l) : Confines c stall own' turns' α m :=
  fun s w hw => (h s w hw).mono fun _ _ h => h.mono hs ht

theorem bind {f : α → Pass β} (h : Confines c stall own turns α m)
    (hf : ∀ a, Confines c stall own turns β (f a)) : Confines c stall own turns β (m >>= f) :=
  fun s w hw => (h s w hw).bind fun a w₁ h₁ =>
    (hf a s w₁ (hw.spared h₁)).mono fun _ _ h₂ => h₁.trans h₂

/-- **Being confined is put together** as parts of walks are. -/
theorem roams : Roams (Confines c stall own turns) where
  pure _ := of_keeps Keeps.pure
  bind := bind
  throw _ := of_keeps Keeps.throw
  get := of_keeps Keeps.get
  read := of_keeps Keeps.browses.read
  fetch _ _ := of_keeps Keeps.fetch
  judge _ _ := of_keeps Keeps.judge
  whole := of_keeps Keeps.browses.whole
  step := of_keeps Keeps.browses.step
  skipContainer := of_keeps Keeps.browses.skipContainer
  seek p := of_keeps (Keeps.browses.seek p)

end Confines

/-- Where a mark ends, the state has been marked. -/
theorem ends_mark {b : Nat} {v : Bool} : Ends s w (Pass.mark b v) fun _ w' =>
    ∃ state decided, w.state.mark b v = .ok state ∧
      w' = { w with state, trail := .marked b v decided :: w.trail } := by
  have check : Ends s w (checkBucket b) fun _ w' => w' = w :=
    (ends_get (Q := fun u v => u = w ∧ v = w) ⟨rfl, rfl⟩).bind fun u v hu => by
      obtain ⟨rfl, rfl⟩ := hu
      split
      · exact ends_fail
      · exact ends_pure rfl
  refine check.bind fun _ w₁ h₁ => ?_
  subst h₁
  refine (ends_get (Q := fun u v => u = w₁ ∧ v = w₁) ⟨rfl, rfl⟩).bind fun u v' hu => ?_
  obtain ⟨rfl, rfl⟩ := hu
  cases hm : v'.state.mark b v with
  | error _ => exact ends_fail
  | ok state =>
    intro _ _ ho
    cases ho
    exact ⟨state, _, rfl, rfl⟩

/-- A part from which the walk comes back ends where it ends, but for the place. -/
theorem Ends.returning {m : Pass Unit} {position : Nat} {Q : Walker → Prop}
    (h : Ends s w m fun _ w' => Q { w' with cursor := w'.cursor.seek position }) :
    Ends s w (restoring m (seek position)) fun _ w' => Q w' := fun a w' ho => by
  rw [outcome_returning] at ho
  obtain ⟨hr, rfl⟩ := Prod.mk.inj ho
  exact h a _ (Prod.ext hr rfl)

/-- What lies below the stall, if there is one. -/
def Course.Below (c : Course) (stall : Option Nat) (b : Nat) : Prop :=
  ∀ i, stall = some i → c.tree.isBelow i b = true

theorem Walker.Placed.within (h : w.Placed c stall) {b : Nat} (hb : c.Below stall b) :
    w.state.Within b := fun i hi => by
  rw [h.tree]
  exact hb i (h.stall.symm.trans hi)

namespace Confines

/-- A mark of a bucket that the stall bounds. -/
theorem mark (hv : c.tree.Valid) {b : Nat} {v : Bool} (hb : c.Bucket stall b) :
    Confines c stall own turns Unit (Pass.mark b v) := fun s w hw =>
  ends_mark.mono fun _ w' ⟨state, decided, hm, he⟩ => by
    subst he
    obtain ⟨htree, hsize⟩ := State.shape_mark hm
    exact ⟨⟨htree, hsize, rfl⟩, State.bounded_mark (hw.tree ▸ hv) (hw.within hb.below) hm,
      fun _ _ => rfl, [_], rfl, by simp [Event.Turning]⟩

/-- A capture in one of the slots that may change. -/
theorem capture {token : Token} {v : Value} {slot : Option Nat} (hs : ∀ i, slot = some i → own i) :
    Confines c stall own turns Unit (Walk.capture token v slot) := by
  cases slot with
  | none => exact roams.pure _
  | some slot =>
    have fill (span : Span) : Confines c stall own turns Unit (setSlot slot (some span)) := by
      refine fun s w _ => ends_of_outcome (a := ()) outcome_modify ?_
      refine ⟨⟨rfl, rfl, Array.size_setIfInBounds⟩, .refl _, fun i hi => ?_, .refl w⟩
      have hne : slot ≠ i := fun e => hi (hs i (congrArg some e))
      exact Array.getElem?_setIfInBounds_ne hne
    refine roams.bind roams.slotAt fun found => ?_
    cases found with
    | some _ => exact roams.pure _
    | none =>
      exact roams.bind roams.spanFrom fun span => roams.bind (fill span) fun _ =>
        of_keeps (Keeps.modify fun w => Walker.browsed_note trivial)

/-- A loop over what has been captured. -/
theorem runOver (hv : c.tree.Valid) {found : Option Span} {loop : Runner}
    (hb : c.Bucket stall loop.bucket) (hr : Confines c stall own turns Unit loop.run) :
    Confines c stall own turns Unit (Pass.runOver found loop) :=
  roams.bind roams.get fun w₀ => by
    cases found with
    | none => exact mark hv hb
    | some span =>
      refine ite_of (roams.bind (roams.seek _) fun _ => fun s w hw => ?_) (mark hv hb)
      refine Ends.returning ((hr s w hw).mono fun _ w₁ h₁ => h₁.trans ?_)
      exact Walker.Browsed.spared ⟨rfl, rfl, .refl w₁⟩

end Confines

/-! ## 3. Loops -/

/-- An element begins afresh: nothing is known of what lies below the loop, and its slots are empty. -/
structure Loop.Fresh (c : Course) (l : Loop) (marks : Array Mark) (slots : Slots) : Prop where
  unknown : ∀ j, c.tree.isBelow l.bucket j = true → marks[j]? = some .unknown
  empty : ∀ i ∈ l.locals, slots[i]? = some none

/-- While a loop runs, its own elements begin afresh, and other loops that turn to elements lie below
    its bucket. -/
def Loop.Turns (c : Course) (l : Loop) (b : Nat) (marks : Array Mark) (slots : Slots) : Prop :=
  c.tree.isBelow l.bucket b = true ∨ b = l.bucket ∧ l.Fresh c marks slots

/-- **What a loop leaves.** -/
structure Loop.Effect (c : Course) (l : Loop) (w w' : Walker) : Prop extends w.SameShape w' where
  stall : w'.state.stall = w.state.stall
  /-- Outside of what lies below the bucket it is as if the bucket had been marked at once. -/
  marked : ∃ v state, w.state.mark l.bucket v = .ok state ∧
    ∀ j, c.tree.isBelow l.bucket j = false → w'.state.get j = state.get j
  kept : ∀ i, i ∉ l.body.slots → w'.slots[i]? = w.slots[i]?
  turned : w.Turned (l.Turns c) w'

/-- Under the stall of a loop its body is confined to its slots. -/
def Loop.Contained (c : Course) (l : Loop) : Prop :=
  l.body.handler.All (Confines c (some l.bucket) (· ∈ l.body.slots)
    fun b _ _ => c.Below (some l.bucket) b)

section Loops

variable {l : Loop} (hv : c.tree.Valid) (hl : c.LoopFits stall l)
include hv hl

/-- Leaving a loop, when what was done while it ran has been confined. -/
theorem Loop.leave_effect {w₃ : Walker} {verdict : Verdict} (hw : w.Placed c w.state.stall)
    (during : Walker.Spared (· ∈ l.body.slots) (l.Turns c)
      { w with state := w.state.withStall (some l.bucket) } w₃) :
    Ends s w₃ (do
      leaveLoop l.bucket w.state.stall
      Pass.mark l.bucket verdict.answer
      if ← Pass.settled then return
      else passArray verdict.decider) fun _ w' => l.Effect c w w' := by
  have leave : Ends s w₃ (leaveLoop l.bucket w.state.stall) fun _ w₄ =>
      w₄ = { w₃ with state := w₃.state.leave l.bucket w.state.stall } := ends_of_outcome rfl rfl
  refine leave.bind fun _ w₄ h₄ => ?_
  -- what lies outside is what it was when the loop was gone into, so the mark is the same as then
  have left : State.AlikeOutside l.bucket w.state w₄.state := by
    rw [h₄]
    refine ⟨during.tree, rfl, State.size_update.trans during.marks, fun j hj => ?_⟩
    have htree : w₃.state.tree = w.state.tree := during.tree
    exact (State.get_resetBelow_of_not_below (htree ▸ hj)).trans (during.bounded.get_outside hj)
  refine ends_mark.bind fun _ w₅ ⟨state, decided, hm, h₅⟩ => ?_
  obtain ⟨d, hd, alike⟩ := left.mark (hw.tree ▸ hv) (hw.tree ▸ hl.bucket.lt) hm
  obtain ⟨htree, hsize⟩ := State.shape_mark hm
  have passes : Keeps Walker.Browsed (do
      if ← Pass.settled then return else passArray verdict.decider : Pass Unit) :=
    Keeps.browses.bind Keeps.browses.settled fun _ => ite_of (J := Keeping Walker.Browsed)
      Keeps.pure (Keeps.browses.passArray fun _ _ => Keeps.browses.seek _)
  refine passes.ends.mono fun _ w₆ h₆ => ?_
  have hstate : w₆.state = state := by rw [h₆.state, h₅]
  have hslots : w₆.slots = w₃.slots := by rw [h₆.slots, h₅, h₄]
  have marked : w₃.Turned (l.Turns c) w₅ := by
    rw [h₅, h₄]
    exact ⟨[_], rfl, by simp [Event.Turning]⟩
  have passed : w₅.Turned (l.Turns c) w₆ := h₆.turned.mono fun _ _ _ h => h.elim
  refine ⟨⟨?_, ?_, ?_⟩, ?_, ⟨_, d, hd, fun j hj => ?_⟩, fun i hi => ?_,
    during.turned.trans (marked.trans passed)⟩
  · rw [hstate, htree, left.tree]
  · rw [hstate, hsize, left.size]
  · rw [hslots]
    exact during.slots
  · rw [hstate, State.stall_mark hm, left.stall]
  · rw [hstate]
    exact alike.get j (by rwa [(State.shape_mark hd).1, hw.tree])
  · rw [hslots]
    exact during.kept i hi

variable (hs : ∀ i ∈ l.locals, i ∈ l.body.slots)
include hs

/-- **Turning to an element** is confined to the body, and the element begins afresh. -/
theorem Confines.beginElement (first : Token) :
    Confines c (some l.bucket) (· ∈ l.body.slots) (l.Turns c) Unit
      (Walk.beginElement l.bucket l.locals first) := fun s w hw => by
  have hin : ∀ i ∈ l.locals, i < w.slots.size := fun i hi => hw.slots ▸ hl.locals i hi
  refine ends_of_outcome (outcome_beginElement hin) ⟨⟨rfl, State.size_update, Slots.size_emptied⟩,
    ⟨rfl, rfl, fun j hj => State.get_resetBelow_of_not_below (Bool.eq_false_iff.mpr fun hb => ?_)⟩,
    fun i hi => Slots.emptied_of_not_mem (mt (hs i) hi), [_], rfl, ?_⟩
  · exact hj fun i hi => by
      rw [hw.stall] at hi
      exact Option.some.inj hi ▸ hb
  · simp only [List.mem_singleton, forall_eq]
    refine .inr ⟨rfl, fun j hj => ?_, fun i hi => Slots.emptied_of_mem hi (hin i hi)⟩
    have hlt : j < w.state.marks.size := hw.marks ▸ hv.below_lt_size hj
    exact State.marks_resetBelow (hw.tree ▸ hj) hlt

/-- Coming to the end of the elements. -/
theorem Confines.elements (hb : l.Contained c) (body : Nat) :
    Confines c (some l.bucket) (· ∈ l.body.slots) (l.Turns c) Verdict
      (Pass.elements l.bucket body l.mode l.locals l.body.handler) :=
  Confines.roams.elements (hb.imp fun _ _ h => h.mono (fun _ h => h) fun _ _ _ h => .inl (h _ rfl))
    (Confines.beginElement hv hl hs)

/-- **A whole loop**, when its body is confined. -/
theorem Loop.run_effect (hb : l.Contained c) (hw : w.Placed c w.state.stall) :
    Ends s w l.runner.run fun _ w' => l.Effect c w w' := by
  rw [l.runner_eq]
  have enter : Ends s w (exchangeStall (some l.bucket)) fun outer w₁ => outer = w.state.stall ∧
      w₁ = { w with state := w.state.withStall (some l.bucket) } := ends_of_outcome rfl ⟨rfl, rfl⟩
  refine enter.bind fun outer w₁ ⟨houter, h₁⟩ => ?_
  have hw₁ : w₁.Placed c (some l.bucket) := by
    rw [h₁]
    exact ⟨hw.tree, hw.marks, hw.slots, rfl⟩
  have bodyOf : Confines c (some l.bucket) (· ∈ l.body.slots) (l.Turns c) Nat
      (Walk.bodyOf l.bucket) := Confines.roams.bodyOf
  refine (bodyOf s w₁ hw₁).bind fun body w₂ h₂ => ?_
  refine (Confines.elements hv hl hs hb body s w₂ (hw₁.spared h₂)).bind fun verdict w₃ h₃ => ?_
  have during := h₂.trans h₃
  rw [houter]
  rw [h₁] at during
  exact Loop.leave_effect hv hl hw during

end Loops

/-- **Seen from around it**, a loop is confined to the slots in its body. -/
theorem Loop.Effect.spared {l : Loop} (hv : c.tree.Valid) (hl : c.LoopFits stall l)
    (hw : w.Placed c stall) (h : l.Effect c w w') :
    w.Spared (· ∈ l.body.slots) (fun b _ _ => c.Below stall b) w' := by
  have hbelow (b : Nat) (hb : c.tree.isBelow l.bucket b = true) : c.Below stall b :=
    fun i hi => hv.below_trans (hl.bucket.below i hi) hb
  obtain ⟨v, state, hm, hout⟩ := h.marked
  have hbound := State.bounded_mark (hw.tree ▸ hv) (hw.within hl.bucket.below) hm
  refine ⟨h.toSameShape, ⟨h.tree, h.stall, fun j hj => ?_⟩, h.kept, h.turned.mono fun b _ _ ht => ?_⟩
  · rw [hout j (Bool.eq_false_iff.mpr fun hb => hj (hw.within (hbelow j hb))), hbound.outside j hj]
  · rcases ht with hb | ⟨rfl, -⟩
    · exact hbelow b hb
    · exact hl.bucket.below

/-! ## 4. Nodes -/

/-- **What a node does is confined** to its slots, those in the bodies of its loops included. -/
theorem Node.confines (hv : c.tree.Valid) (n : Node) : ∀ {stall : Option Nat}, n.Fits c stall →
    n.handler.All (Confines c stall (· ∈ n.slots) fun b _ _ => c.Below stall b) := by
  induction n using Node.induct with
  | h n children loops afterLoops =>
    intro stall hf
    -- a loop runs under its own stall, and what it leaves is then seen under the stall of the node
    have runs {l : Loop} (hl : l ∈ n.allLoops) (hb : ∀ {stall : Option Nat}, l.body.Fits c stall →
        l.body.handler.All (Confines c stall (· ∈ l.body.slots) fun b _ _ => c.Below stall b)) :
        Confines c stall (· ∈ n.slots) (fun b _ _ => c.Below stall b) Unit l.runner.run := by
      obtain ⟨hl', hbody, hs⟩ := hf.loop hl
      have run : Confines c stall (· ∈ l.body.slots) (fun b _ _ => c.Below stall b) Unit
          l.runner.run := fun s w hw =>
        (Loop.run_effect hv hl' hs (hb hbody) (hw.stall ▸ hw)).mono fun _ _ h => h.spared hv hl' hw
      exact run.mono (fun i hi => Node.mem_slots.mpr (.inr (.inl ⟨l, hl, hi⟩))) fun _ _ _ h => h
    have bucket {l : Loop} (hl : l ∈ n.allLoops) : c.Bucket stall l.runner.bucket := by
      rw [l.runner_bucket]
      exact (hf.loop hl).1.bucket
    rw [n.handler_eq]
    refine Confines.roams.ofParts (fun token v => Confines.capture fun i hi => ?_)
      (fun t ht b => Confines.mark hv (hf.tests ht).1) (fun r hr b => ?_) (fun r hr => ?_)
      (fun child hc => ?_) fun r hr found => ?_
    · exact Node.mem_slots.mpr (.inl hi)
    · obtain ⟨l, hl, rfl⟩ := List.mem_map.mp hr
      exact Confines.mark hv (bucket (List.mem_append_left _ hl))
    · obtain ⟨l, hl, rfl⟩ := List.mem_map.mp hr
      exact runs (List.mem_append_left _ hl) (loops l hl)
    · obtain ⟨c', hm, rfl⟩ := List.mem_map.mp hc
      exact (children c' hm (hf.child hm)).imp fun _ _ h =>
        h.mono (fun i hi => Node.mem_slots.mpr (.inr (.inr ⟨c', hm, hi⟩))) fun _ _ _ h => h
    · obtain ⟨l, hl, rfl⟩ := List.mem_map.mp hr
      have hl' : l ∈ n.allLoops := List.mem_append_right _ hl
      exact Confines.runOver hv (bucket hl') (runs hl' (afterLoops l hl))

/-! ## 5. Loops of compiled plans -/

namespace Plan

variable {kit : Toolkit} {p q : Plan} {es : List Expr} {l : Loop}

/-- **A loop touches only its own state.** The walker may be any that has the shape of the plan, as
    all have that a walk comes through, and the document may be any bytes. Where the loop comes to its
    end,

    * the stall is what it was;
    * slots have changed only if the loop empties them, or a loop inside it does;
    * outside of what lies below the bucket, all marks are those that come of marking the bucket;
    * whenever the loop turned to an element, nothing was known below the bucket, and its slots were
      empty. -/
theorem loop_confined (hq : compileAll kit es = .ok q) (hr : q.Reordered p) (hl : l ∈ p.everyLoop)
    (hw : (Walker.fresh p).SameShape w) (hrun : l.runner.run.outcome s w = (.ok (), w')) :
    w'.state.stall = w.state.stall ∧
    (∀ i, i ∉ l.locals → (∀ k ∈ l.body.everyLoop, i ∉ k.locals) → w'.slots[i]? = w.slots[i]?) ∧
    (∃ v state, w.state.mark l.bucket v = .ok state ∧
      ∀ j, p.tree.isBelow l.bucket j = false → w'.state.get j = state.get j) ∧
    ∃ events, w'.trail = events ++ w.trail ∧
      ∀ first marks slots, .began l.bucket first marks slots ∈ events →
        (∀ j, p.tree.isBelow l.bucket j = true → marks[j]? = some .unknown) ∧
          ∀ i ∈ l.locals, slots[i]? = some none := by
  have hcompiled := compiled_of_reordered hq hr
  have hroot : p.root.Fits (p.course kit []) none := hcompiled.fits
  obtain ⟨stall, hfits, hbody, hs⟩ := hroot.everyLoop p.root hl
  have hplaced : w.Placed (p.course kit []) w.state.stall :=
    ⟨hw.tree, hw.marks.trans Array.size_replicate, hw.slots.trans Array.size_replicate, rfl⟩
  have h := Loop.run_effect hcompiled.tree hfits hs (l.body.confines hcompiled.tree hbody) hplaced
    () w' hrun
  refine ⟨h.stall, fun i hi hk => h.kept i fun hm => ?_, h.marked, ?_⟩
  · rcases (hcompiled.tidy.everyLoop p.root hl).place_of_slot l.body hm with hplace | ⟨k, hkl, hik⟩
    · exact hi ((hcompiled.locals_iff hl i).mpr hplace)
    · exact hk k hkl hik
  · obtain ⟨events, htrail, hturns⟩ := h.turned
    refine ⟨events, htrail, fun first marks slots hm => ?_⟩
    rcases hturns _ hm with hbelow | ⟨-, hfresh⟩
    · exact absurd (Tree.isBelow_iff.mp hbelow).1 (Nat.lt_irrefl _)
    · exact ⟨hfresh.unknown, hfresh.empty⟩

/-- Some element has the same in two of its members. -/
def sameFields : Expr :=
  .loop .any 1 (.field ⟨Variable.root, []⟩)
    (.relation .equals (.field ⟨1, ["a"]⟩) (.field ⟨1, ["b"]⟩))

/-- The loop that this is compiled into. -/
def sameFieldsLoop : Loop where
  bucket := 0
  mode := .any
  target := .active
  body := ⟨none, [], [], [("a", ⟨some 0, [], [], [], [], []⟩), ("b", ⟨some 1, [], [], [], [], []⟩)],
    [⟨1, .relation .equals (.slot 0) (.slot 1)⟩], []⟩
  locals := [0, 1]

/-- The text `[{"a":1},{"b":1}]`, whose elements have one of the members each. -/
def apartText : Bytes :=
  ['[', '\x7b', '"', 'a', '"', ':', '1', '\x7d', ',', '\x7b', '"', 'b', '"', ':', '1', '\x7d',
    ']'].map Char.toUInt8

/-- The walker that has read the bracket. -/
def behindApart (p : Plan) : Walker := { Walker.fresh p with cursor := (Cursor.start apartText).step.2 }

/-- The second element begins without the member of the first. -/
theorem loop_confined_sameFields : ∃ p w', compileAll .standard [sameFields] = .ok p ∧
    sameFieldsLoop ∈ p.everyLoop ∧
    sameFieldsLoop.runner.run.outcome ⟨[0], 18, .standard⟩ (behindApart p) = (.ok (), w') ∧
    w'.state.stall = none ∧
    ∃ first marks slots, .began 0 first marks slots ∈ w'.trail ∧ first.offset = 9 ∧
      slots[0]? = some none := by
  obtain ⟨p, hp⟩ := (compileAll_isOk .standard [sameFields]).mpr (by
    simp [sameFields, Expr.AllFormed, Expr.Formed, Expr.IsOperand])
  have hloops := eq_of_map hp (f := everyLoop) (a := [sameFieldsLoop]) (by cbv)
  have hl : sameFieldsLoop ∈ p.everyLoop := hloops ▸ List.mem_singleton.mpr rfl
  have hrun := outcome_of_fst (s := ⟨[0], 18, .standard⟩) (w := behindApart p)
    (m := sameFieldsLoop.runner.run)
    (eq_of_map hp (f := fun p =>
      (sameFieldsLoop.runner.run.outcome ⟨[0], 18, .standard⟩ (behindApart p)).1) (by cbv))
  obtain ⟨hstall, -, -, events, htrail, hbegan⟩ :=
    loop_confined (w := behindApart p) hp (.refl p) hl ⟨rfl, rfl, rfl⟩ hrun
  have hbegins := eq_of_map hp (f := fun p =>
      (sameFieldsLoop.runner.run.outcome ⟨[0], 18, .standard⟩ (behindApart p)).2.trail[13]?)
    (a := some (.began 0 ⟨.objectStart, 9, ['\x7b'.toUInt8]⟩ #[.unknown, .unknown] #[none, none]))
    (by cbv)
  have hm := List.mem_of_getElem? hbegins
  have hin := hm
  rw [htrail, show (behindApart p).trail = [] from rfl, List.append_nil] at hin
  exact ⟨p, _, hp, hl, hrun, hstall, _, _, _, hm, rfl, (hbegan _ _ _ hin).2 0 List.mem_cons_self⟩

end Plan

end Sift
