import Sift.Proofs.Walk.Moves

/-!
# Walks inside a loop

While a loop runs, its bucket is the stall. `InLoop c l w w'` says how far a walker `w'` between
two elements may be from the walker `w` that the loop was entered with: marks are different only
below the loop's bucket, and slots only in its body.

* `InLoop.enter`, `InLoop.moves` and `meets_beginElement` lead to such a walker,
* `InLoop.leave` leads out again, and then nothing has moved but what the loop may move.
-/

namespace Sift

open Resolution

variable {loops slots : Nat → Prop} {c : Course} {l : Loop} {w w₁ w₂ : Walker}

/-! ## 1. Entering -/

/-- What a loop needs to be run. -/
structure Enters (c : Course) (l : Loop) (w : Walker) : Prop where
  fit : w.Fit c
  loop : c.LoopFits w.state.stall l
  body : l.body.Fits c (some l.bucket)
  locals : ∀ i ∈ l.locals, i ∈ l.body.slots
  unknown : w.state.get l.bucket = .unknown

/-- **How far a walker in a loop is from the one that entered it.** -/
structure InLoop (c : Course) (l : Loop) (w w' : Walker) : Prop where
  fit : w'.Fit c
  stall : w'.state.stall = some l.bucket
  outside : ∀ j, c.tree.isBelow l.bucket j = false → w'.state.get j = w.state.get j
  slots : ∀ i, i ∉ l.body.slots → w'.slots[i]? = w.slots[i]?
  trail : w.Extends w'

namespace Enters

/-- What lies below the loop lies below the stall. -/
theorem within (h : Enters c l w) {j : Nat} (hj : c.tree.isBelow l.bucket j = true) :
    w.state.Within j := fun i hi => by
  rw [h.fit.tree]
  exact (h.fit.tree ▸ h.fit.good.valid).below_trans (h.loop.bucket.below i hi) hj

theorem within_self (h : Enters c l w) : w.state.Within l.bucket := fun i hi => by
  rw [h.fit.tree]
  exact h.loop.bucket.below i hi

theorem not_below (_ : Enters c l w) : c.tree.isBelow l.bucket l.bucket = false :=
  Bool.eq_false_iff.mpr fun hb => absurd (Tree.isBelow_iff.mp hb).1 (Nat.lt_irrefl _)

/-- The bucket of the body. -/
theorem body_lt (h : Enters c l w) :
    l.bucket < (c.tree.node l.bucket).left ∧ (c.tree.node l.bucket).left < c.tree.size :=
  (h.fit.tree ▸ h.fit.good.valid).first_child h.loop.bucket.lt (.inr h.loop.kind)

theorem enter (h : Enters c l w) :
    InLoop c l w { w with state := w.state.withStall (some l.bucket) } where
  fit := {
    data := h.fit.data
    inside := h.fit.inside
    tree := h.fit.tree
    good := State.good_withStall h.fit.good fun i hi => by
      cases hi
      rw [h.fit.tree]
      exact h.loop.kind
    slots := h.fit.slots
    spans := h.fit.spans }
  stall := rfl
  outside _ _ := rfl
  slots _ _ := rfl
  trail := ⟨[], rfl, by simp⟩

end Enters

namespace InLoop

variable {α : Type} {s : Setting} {F : MatchError → Prop} {m : Walk α} {Q : α → Walker → Prop}

theorem unknown (hi : InLoop c l w w₁) (h : Enters c l w) : w₁.state.get l.bucket = .unknown := by
  rw [hi.outside _ h.not_below, h.unknown]

theorem within (hi : InLoop c l w w₁) {j : Nat} :
    w₁.state.Within j ↔ c.tree.isBelow l.bucket j = true := by
  rw [State.Within, hi.stall, hi.fit.tree]
  exact ⟨fun h => h _ rfl, fun h i he => by cases he; exact h⟩

/-- What may happen in the loop may happen where it was entered. -/
theorem allows (hi : InLoop c l w w₁) (h : Enters c l w) {e : Event} (he : w₁.Allows e) :
    w.Allows e := by
  cases e with
  | marked b _ _ => exact h.within (hi.within.mp he)
  | began b _ _ _ => exact h.within (hi.within.mp he)
  | judged b m => exact ⟨h.within (hi.within.mp he.1), he.2⟩
  | _ => trivial

/-! ## 2. Between two elements -/

/-- What happens in the loop happens after it was entered. -/
theorem extends_of (hi : InLoop c l w w₁) (h : Enters c l w) (he : w₁.Extends w₂) :
    w.Extends w₂ := by
  obtain ⟨es, ht, hes⟩ := hi.trail
  obtain ⟨es', ht', hes'⟩ := he
  refine ⟨es' ++ es, by rw [ht', ht, List.append_assoc], fun e hm => ?_⟩
  rcases List.mem_append.mp hm with hm | hm
  · exact hi.allows h (hes' e hm)
  · exact hes e hm

/-- A part of the walk that moves no more than the body may. -/
theorem moves (hi : InLoop c l w w₁) (h : Enters c l w) (hm : Moves loops slots w₁ w₂)
    (hfit : w₂.Fit c) (hs : ∀ i, slots i → i ∈ l.body.slots) : InLoop c l w w₂ where
  fit := hfit
  stall := hm.stall.trans hi.stall
  outside j hj := by
    rw [hm.outside j fun hw => ?_, hi.outside j hj]
    rw [hi.within.mp hw] at hj
    cases hj
  slots i hn := (hm.slots i (mt (hs i) hn)).trans (hi.slots i hn)
  trail := hi.extends_of h hm.trail

/-- **A part of the walk between two elements**, which cannot be settled. -/
theorem run (hi : InLoop c l w w₁) (h' : Enters c l w)
    (hm : Walk.Safe c s F (fun _ => False) (· ∈ l.body.slots) w₁ m Q fun _ => False) :
    Walk.Meets s w₁ m (fun a w₂ => InLoop c l w w₂ ∧ Q a w₂) (Walk.Fails F w) :=
  Walk.Meets.mono hm (fun _ _ h₂ => ⟨hi.moves h' h₂.1 h₂.2.1 fun _ h => h, h₂.2.2⟩) fun e _ h => by
    cases e with
    | settled => exact h.2.2.2
    | failed e => exact ⟨h.1, hi.extends_of h' h.2⟩

/-- Something that the loop itself does. -/
theorem note (hi : InLoop c l w w₁) {e : Event} (he : w.Allows e) :
    InLoop c l w { w₁ with trail := e :: w₁.trail } where
  fit := ⟨hi.fit.data, hi.fit.inside, hi.fit.tree, hi.fit.good, hi.fit.slots, hi.fit.spans⟩
  stall := hi.stall
  outside := hi.outside
  slots := hi.slots
  trail := by
    obtain ⟨es, ht, hes⟩ := hi.trail
    refine ⟨e :: es, by rw [ht, List.cons_append], fun e' hm => ?_⟩
    rcases List.mem_cons.mp hm with rfl | hm
    · exact he
    · exact hes e' hm

/-- Nothing is known below the loop any more. -/
theorem reset (hi : InLoop c l w w₁) (h : Enters c l w) :
    InLoop c l w { w₁ with state := w₁.state.resetBelow l.bucket } where
  fit := {
    data := hi.fit.data
    inside := hi.fit.inside
    tree := hi.fit.tree
    good := State.good_resetBelow hi.fit.good (hi.unknown h)
    slots := hi.fit.slots
    spans := hi.fit.spans }
  stall := hi.stall
  outside j hj := by
    rw [← hi.outside j hj]
    exact State.get_resetBelow_of_not_below (by rw [hi.fit.tree]; exact hj)
  slots := hi.slots
  trail := hi.trail

/-- **Leaving a loop**: nothing has moved but what a loop may move, and the loop is unanswered. -/
theorem leave (hi : InLoop c l w w₁) (h : Enters c l w)
    (hw : w₂ = { w₁ with state := (w₁.state.resetBelow l.bucket).withStall w.state.stall }) :
    Moves (· = l.bucket) (· ∈ l.body.slots) w w₂ ∧ w₂.Fit c ∧
      w₂.state.get l.bucket = .unknown := by
  have hr := hi.reset h
  subst hw
  refine ⟨?_, ?_, hr.unknown h⟩
  · have same {j : Nat} (hj : c.tree.isBelow l.bucket j = false) :
        (w₁.state.resetBelow l.bucket).get j = w.state.get j := hr.outside j hj
    refine ⟨hi.fit.tree.trans h.fit.tree.symm, rfl, fun j hj => same ?_, fun j _ hj => same ?_,
      hi.slots, hi.trail⟩
    · exact Bool.eq_false_iff.mpr fun hb => hj (h.within hb)
    · rw [← h.fit.tree]
      exact hj _ rfl
  · refine ⟨hi.fit.data, hi.fit.inside, hi.fit.tree, ?_, hi.fit.slots, hi.fit.spans⟩
    refine State.good_withStall hr.fit.good fun i he => ?_
    rw [show (w₁.state.resetBelow l.bucket).tree = w.state.tree from
      hi.fit.tree.trans h.fit.tree.symm]
    exact h.fit.good.stall i he

/-! ## 3. The body of a loop -/

/-- Once something is known of the body, it has a value. -/
theorem body_value (hi : InLoop c l w w₁) (h : Enters c l w)
    (hk : w₁.Known (c.tree.node l.bucket).left) :
    ∃ v, w₁.state.get (c.tree.node l.bucket).left = .value v := by
  have ht := hi.fit.tree
  have := h.body_lt
  exact hi.fit.good.child_value (hi.unknown h) (by rw [ht]; exact h.loop.bucket.lt)
    (.inl (by rw [ht])) (by omega) hk

/-- The body is known once all is that its node is there to find out. -/
theorem body_known (hi : InLoop c l w w₁) (h : Enters c l w)
    (hk : ∀ b ∈ l.body.buckets, w₁.Known b) : w₁.Known (c.tree.node l.bucket).left :=
  State.known_of_rests hi.fit.good hk (hi.fit.tree ▸ h.loop.rests)

/-- What settles an element is that its body is known. -/
theorem body_settled {s : Setting} (hi : InLoop c l w w₁) (h : s.isSettled w₁.state = true) :
    w₁.Known (c.tree.node l.bucket).left := by
  simp only [Setting.isSettled, State.isSettled, hi.stall, hi.fit.tree, Option.isNone_some,
    Bool.false_and, Bool.false_eq_true, if_false] at h
  exact State.isResolved_iff.mp h

end InLoop

/-! ## 4. The parts of a loop -/

namespace Walk

variable {α : Type} {s : Setting} {F : MatchError → Prop} {m : Walk α} {Q : α → Walker → Prop}
  {H : Halt → Walker → Prop}

/-- A safe part of a walk that cannot be settled and does not fail. -/
theorem Safe.always (h : Safe c s (fun _ => False) loops slots w m Q fun _ => False) :
    Meets s w m Q H :=
  Meets.mono h (fun _ _ h => h.2.2) fun e _ h => by
    cases e with
    | settled => exact h.2.2.2.elim
    | failed e => exact h.1.elim

theorem meets_bodyOf (hi : InLoop c l w w₁) (h : Enters c l w) :
    Meets s w₁ (bodyOf l.bucket)
      (fun body w' => body = (c.tree.node l.bucket).left ∧ w' = w₁) H := by
  have check {b : Nat} (hb : b < c.tree.size) :
      Meets s w₁ (checkBucket b) (fun _ w' => w' = w₁) H := by
    have safe : Safe c s (fun _ => False) (fun _ => False) (fun _ => False) w₁ (checkBucket b)
        (fun _ w' => w' = w₁) fun _ => False := safe_checkBucket hi.fit hb
    exact safe.always
  refine (check h.loop.bucket.lt).bind fun _ w' hw => ?_
  subst hw
  refine (meets_get (Q := fun u v => u = w' ∧ v = w') ⟨rfl, rfl⟩).bind fun u v hu => ?_
  obtain ⟨rfl, rfl⟩ := hu
  simp only [hi.fit.tree]
  refine (check h.body_lt.2).bind fun _ w' hw => ?_
  exact meets_pure ⟨rfl, hw⟩

/-- What turning to an element leaves. -/
structure Begun (c : Course) (l : Loop) (first : Token) (w w' : Walker) : Prop where
  cursor : w'.cursor = w.cursor
  unknown : ∀ j, c.tree.isBelow l.bucket j = true → w'.state.get j = .unknown
  empty : ∀ i ∈ l.locals, w'.slots[i]? = some none
  kept : ∀ i, i ∉ l.locals → w'.slots[i]? = w.slots[i]?
  trail : w'.trail = .began l.bucket first w'.state.marks w'.slots :: w.trail

/-- The slots of the body are emptied one after the other. -/
theorem meets_releases (hi : InLoop c l w w₁) (h : Enters c l w) :
    Meets s w₁ (l.locals.forM release) (fun _ w' => InLoop c l w w' ∧
      (∃ slots, w' = { w₁ with slots }) ∧ (∀ i ∈ l.locals, w'.slots[i]? = some none) ∧
      ∀ i, i ∉ l.locals → w'.slots[i]? = w₁.slots[i]?) H := by
  refine (meets_forM (I := fun rest w' => InLoop c l w w' ∧ (∃ slots, w' = { w₁ with slots }) ∧
    (∀ i ∈ l.locals, i ∉ rest → w'.slots[i]? = some none) ∧
    ∀ i, i ∉ l.locals → w'.slots[i]? = w₁.slots[i]?)
    ⟨hi, ⟨_, rfl⟩, fun _ hm hn => absurd hm hn, fun _ _ => rfl⟩ fun i rest w' hm hinv => ?_).mono
    (fun _ _ h => ⟨h.1, h.2.1, fun i hm => h.2.2.1 i hm List.not_mem_nil, h.2.2.2⟩)
    fun _ _ h => h
  obtain ⟨hi', ⟨slots, rfl⟩, he, hk⟩ := hinv
  have hc : i < c.count := h.loop.locals i hm
  have hlt : i < slots.size := by
    rw [← hi'.fit.slots] at hc
    exact hc
  have safe : Safe c s (fun _ => False) (fun _ => False) (· ∈ l.body.slots) _ (release i) _
      fun _ => False := safe_release hi'.fit hc (h.locals i hm)
  refine Meets.mono safe (fun _ w₃ h₃ => ?_) fun e _ h => ?_
  · obtain ⟨hm₃, hfit₃, rfl⟩ := h₃
    refine ⟨hi'.moves h hm₃ hfit₃ fun _ h => h, ⟨_, rfl⟩, fun j hj hn => ?_, fun j hj => ?_⟩
    · refine (getElem?_setIfInBounds hlt).trans ?_
      split
      · rfl
      · next hne => exact he j hj fun hr => (List.mem_cons.mp hr).elim (fun e => hne e.symm) hn
    · exact ((getElem?_setIfInBounds hlt).trans (if_neg fun e : i = j => hj (e ▸ hm))).trans
        (hk j hj)
  · cases e with
    | settled => exact h.2.2.2.elim
    | failed e => exact h.1.elim

/-- **Turning to an element.** -/
theorem meets_beginElement {first : Token} (hi : InLoop c l w w₁) (h : Enters c l w) :
    Meets s w₁ (beginElement l.bucket l.locals first)
      (fun _ w' => InLoop c l w w' ∧ Begun c l first w₁ w') H := by
  refine (meets_modify (Q := fun _ w' => w' =
    { w₁ with state := w₁.state.resetBelow l.bucket }) rfl).bind fun _ w₂ hw => ?_
  have hr := hi.reset h
  rw [← hw] at hr
  refine (meets_releases hr h).bind fun _ w₃ h₃ => ?_
  obtain ⟨hi₃, ⟨slots, rfl⟩, he, hk⟩ := h₃
  refine (meets_get (Q := fun u v => u = v ∧ v = { w₂ with slots }) ⟨rfl, rfl⟩).bind
    fun u v hu => ?_
  obtain ⟨rfl, rfl⟩ := hu
  refine meets_note ⟨hi₃.note h.within_self, ?_⟩
  subst hw
  exact ⟨rfl, fun j hj => State.get_resetBelow_of_below (by rw [hi.fit.tree]; exact hj), he, hk,
    rfl⟩

/-- **What is said of an element** whose body has a value. -/
theorem meets_judge {b body : Nat} {v : Bool} (hv : w.state.get body = .value v) :
    Meets s w (judge b body) (fun r w' => r = v ∧
      w' = { w with trail := .judged b (.value v) :: w.trail }) H := by
  refine (meets_get (Q := fun u w' => u = w ∧ w' = w) ⟨rfl, rfl⟩).bind fun u w' hu => ?_
  rw [hu.1, hu.2]
  simp only [hv]
  refine (meets_note (Q := fun _ u => u = { w with trail := .judged b (.value v) :: w.trail })
    rfl).bind fun _ u hw => meets_pure ⟨?_, hw⟩
  cases v <;> rfl

end Walk

end Sift
