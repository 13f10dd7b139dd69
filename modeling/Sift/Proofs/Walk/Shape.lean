import Sift.Matcher
import Sift.Proofs.Walk.Traversal
import Sift.Proofs.Resolution.Evidence
import Sift.Proofs.Walk.Polling
import Sift.Proofs.Cursor

/-!
# What no walk changes

A walk changes marks and slots, and never the tree or how many marks and slots there are, nor the
document that it reads. This is so for any plan and any bytes, and wherever the walk stops: at the
end, in the middle of a loop, or with an error (`Node.keeps`). All that is left to be told of a
walker once its marks and slots are forgotten is its tree and these two numbers.

`Keeps R` says of a part of a walk that what a walker was and what it is are related by `R`. For a
`Looking` relation it holds of what only looks and is put together as walks are (`Keeps.composes`). For
the parts that leave the cursor alone it is shown of all `Framing` relations at once, and so also of
the parts that come back to where they began.

`Matcher.Shaped.reset`: a matcher that has been used and then reset is a new one.
-/

namespace Sift

open Resolution

variable {ε α β : Type} {w w' w'' : Walker}

/-! ## 1. Shapes -/

/-- The tree is the same, and there are as many marks and slots. -/
structure Walker.SameShape (w w' : Walker) : Prop where
  tree : w'.state.tree = w.state.tree
  marks : w'.state.marks.size = w.state.marks.size
  slots : w'.slots.size = w.slots.size

theorem Walker.SameShape.refl (w : Walker) : w.SameShape w := ⟨rfl, rfl, rfl⟩

theorem Walker.SameShape.trans (h : w.SameShape w') (h' : w'.SameShape w'') : w.SameShape w'' :=
  ⟨h'.tree.trans h.tree, h'.marks.trans h.marks, h'.slots.trans h.slots⟩

/-- The shape is the same, and so is the document. -/
structure Walker.SameDocument (w w' : Walker) : Prop extends w.SameShape w' where
  data : w'.cursor.data = w.cursor.data

/-- What is told of a walker with these slots, and is no change of them. -/
def Event.Idle (slots : Slots) : Event → Prop
  | .fetched _ i found => slots[i]? = some found
  | .captured _ _ _ | .began _ _ _ _ => False
  | _ => True

/-- A relation between what a walker was and what it is that can be put together, and holds where
    the walker has only looked at something. -/
class Looking (R : Walker → Walker → Prop) : Prop where
  refl : ∀ w : Walker, R w w
  look : ∀ {w : Walker} {e : Event}, e.Idle w.slots → R w { w with trail := e :: w.trail }
  trans : ∀ {w w' w'' : Walker}, R w w' → R w' w'' → R w w''

/-- A relation between what a walker was and what it is. It says nothing that marks and slots alone
    decide, and can be put together. -/
class Framing (R : Walker → Walker → Prop) : Prop where
  still : ∀ {w w' : Walker}, w.SameShape w' → w'.cursor = w.cursor → R w w'
  trans : ∀ {w w' w'' : Walker}, R w w' → R w' w'' → R w w''

instance : Framing Walker.SameDocument where
  still h hc := ⟨h, by rw [hc]⟩
  trans h h' := ⟨h.1.trans h'.1, h'.2.trans h.2⟩

variable {R : Walker → Walker → Prop}

instance [Framing R] : Looking R where
  refl w := Framing.still (.refl w) rfl
  look _ := Framing.still ⟨rfl, rfl, rfl⟩ rfl
  trans := Framing.trans

/-- **A part of a walk keeps the relation**, with any walker, also where it fails. -/
def Keeps (R : Walker → Walker → Prop) (m : WalkOf ε α) : Prop :=
  ∀ (s : Setting) (w : Walker), R w (m.outcome s w).2

/-- The same, of parts of a `Pass` of any type. -/
abbrev Keeping (R : Walker → Walker → Prop) (α : Type) (m : Pass α) : Prop := Keeps R m

namespace Keeps

/-! ## 2. Ways to put walks together -/

theorem modify {f : Walker → Walker} (h : ∀ w : Walker, R w (f w)) :
    Keeps R (modify f : WalkOf ε Unit) := fun _ w => h w

/-- A part that looks at the walker first. -/
theorem get_bind {f : Walker → WalkOf ε α}
    (h : ∀ (s : Setting) (w : Walker), R w ((f w).outcome s w).2) :
    Keeps R (MonadState.get >>= f) := fun s w => by
  rw [Walk.outcome_bind]
  exact h s w

theorem observing {m : WalkOf ε α} (h : Keeps R m) :
    Keeps R (observing m : WalkOf ε (Except ε α)) := fun s w => by
  rw [Walk.outcome_observing]
  exact h s w

section Looking

variable [Looking R]

theorem bind {m : WalkOf ε α} {f : α → WalkOf ε β} (h : Keeps R m) (hf : ∀ a, Keeps R (f a)) :
    Keeps R (m >>= f) := fun s w => by
  have hm := h s w
  rw [Walk.outcome_bind]
  split
  · next heq =>
    rw [heq] at hm
    exact Looking.trans hm (hf _ s _)
  · next heq =>
    rw [heq] at hm
    exact hm

theorem pure {a : α} : Keeps R (pure a : WalkOf ε α) := fun _ w => Looking.refl w

theorem throw {e : ε} : Keeps R (throw e : WalkOf ε α) := fun _ w => Looking.refl w

theorem get : Keeps R (get : WalkOf ε Walker) := fun _ w => Looking.refl w

theorem restoring {part restore : WalkOf ε Unit} (h : Keeps R part) (h' : Keeps R restore) :
    Keeps R (Walk.restoring part restore) :=
  h.observing.bind fun outcome => h'.bind fun _ => by
    cases outcome with
    | ok _ => exact pure
    | error _ => exact throw

theorem fetch {reader slot : Nat} : Keeps R (Walk.fetch reader slot : Pass (Option Span)) :=
  fun s w => by
    show R w ((Walk.slotAt slot >>= _ : Pass (Option Span)).outcome s w).2
    rw [Walk.outcome_bind, outcome_slotAt]
    cases hf : w.slots[slot]? with
    | none => exact Looking.refl w
    | some found =>
      refine Looking.trans (Looking.look (e := .fetched reader slot found) hf) ?_
      cases found with
      | none => exact Looking.refl _
      | some span =>
        refine get_bind (f := fun w => if span.isInside w.cursor.data then Pure.pure (some span)
          else Walk.fail (.defect (.noSpan span.offset span.stop))) (fun s w => ?_) s _
        exact ite_of (J := Keeping R) pure throw s w

theorem judge {bucket body : Nat} : Keeps R (Walk.judge bucket body : Pass Bool) :=
  get_bind fun _ _ => Looking.look trivial

/-- **What a relation says is put together** as parts of walks are. -/
theorem composes : Composes (Keeping R) where
  pure _ := pure
  bind := bind
  throw _ := throw
  get := get
  read _ w := Looking.refl w
  fetch _ _ := fetch
  judge _ _ := judge
  whole _ _ := Looking.look trivial

/-- A mark, when the relation holds of what it changes. -/
theorem mark_of {bucket : Nat} {b : Bool} (h : ∀ (w : Walker) (state : State) (decided : Bool),
    w.state.mark bucket b = .ok state →
      R w { w with state, trail := .marked bucket b decided :: w.trail }) :
    Keeps R (Pass.mark bucket b) :=
  composes.checkBucket.bind fun _ => get_bind fun s w => by
    cases hm : w.state.mark bucket b with
    | error _ => exact Looking.refl w
    | ok state => exact h w state _ hm

end Looking

/-! ## 3. Marks and slots -/

section Framing

variable [Framing R]

theorem setSlot {slot : Nat} {found : Option Span} :
    Keeps R (Walk.setSlot slot found : WalkOf ε Unit) :=
  modify fun _ => Framing.still ⟨rfl, rfl, Array.size_setIfInBounds⟩ rfl

theorem note {e : Event} : Keeps R (Walk.note e : WalkOf ε Unit) :=
  modify fun _ => Framing.still ⟨rfl, rfl, rfl⟩ rfl

theorem exchangeStall {stall : Option Nat} :
    Keeps R (Walk.exchangeStall stall : WalkOf ε (Option Nat)) :=
  fun _ _ => Framing.still ⟨rfl, rfl, rfl⟩ rfl

theorem leaveLoop {bucket : Nat} {outer : Option Nat} :
    Keeps R (Walk.leaveLoop bucket outer : WalkOf ε Unit) :=
  modify fun _ => Framing.still ⟨rfl, State.size_update, rfl⟩ rfl

theorem mark {bucket : Nat} {b : Bool} : Keeps R (Pass.mark bucket b) :=
  mark_of fun _ _ _ hm => by
    obtain ⟨ht, hs⟩ := State.shape_mark hm
    exact Framing.still ⟨ht, hs, rfl⟩ rfl

theorem capture {token : Token} {v : Value} {slot : Option Nat} :
    Keeps R (Walk.capture token v slot : Pass Unit) := by
  cases slot with
  | none => exact pure
  | some slot =>
    refine composes.slotAt.bind fun found => ?_
    cases found with
    | some _ => exact pure
    | none => exact composes.spanFrom.bind fun _ => setSlot.bind fun _ => note

theorem beginElement {bucket : Nat} {locals : List Nat} {first : Token} :
    Keeps R (Walk.beginElement bucket locals first : Pass Unit) := by
  have forget : Keeps R (MonadState.modifyGet fun w : Walker =>
      ((), { w with state := w.state.resetBelow bucket }) : Pass Unit) :=
    fun _ _ => Framing.still ⟨rfl, State.size_update, rfl⟩ rfl
  exact forget.bind fun _ =>
    (composes.forM fun _ _ => composes.slotAt.bind fun _ => setSlot).bind fun _ =>
      get.bind fun _ => note

end Framing

/-! ## 4. Reading -/

theorem seek {position : Nat} :
    Keeps Walker.SameDocument (Walk.seek position : WalkOf ε Unit) :=
  modify fun _ => ⟨⟨rfl, rfl, rfl⟩, rfl⟩

theorem step : Keeps Walker.SameDocument (Walk.step : Pass Token) := fun _ w => by
  rw [outcome_step]
  exact ⟨⟨rfl, rfl, rfl⟩, w.cursor.step_data⟩

theorem skipContainer : Keeps Walker.SameDocument (Walk.skipContainer : Pass Unit) :=
  fun _ w => by
    rw [outcome_skipContainer]
    exact ⟨⟨rfl, rfl, rfl⟩, w.cursor.skipContainer_data⟩

/-- **A walk may go anywhere** in its document. -/
theorem roams : Roams (Keeping Walker.SameDocument) where
  toComposes := composes
  step := step
  skipContainer := skipContainer
  seek _ := seek

end Keeps

/-! ## 5. Handlers and runners -/

/-- Whatever a handler does keeps the shape and the document. -/
structure Handler.Keeps (h : Handler) : Prop where
  read : ∀ token, Sift.Keeps Walker.SameDocument (h.read token)
  finish : ∀ token v, Sift.Keeps Walker.SameDocument (h.finish token v)
  missing : Sift.Keeps Walker.SameDocument h.missing

theorem Handler.Keeps.all {h : Handler} (hk : h.Keeps) : h.All (Keeping Walker.SameDocument) :=
  ⟨hk.read, hk.finish, hk.missing⟩

theorem Handler.Keeps.handle {h : Handler} (hk : h.Keeps) (token : Token) :
    Sift.Keeps Walker.SameDocument (h.handle token) := Keeps.roams.handle hk.all token

namespace Keeps

/-- **A loop** keeps the shape: what it forgets of its body it forgets as marks. -/
theorem runLoop {bucket : Nat} {mode : LoopMode} {locals : List Nat} {body : Handler}
    (hb : body.Keeps) : Keeps Walker.SameDocument (Pass.runLoop bucket mode locals body) :=
  exchangeStall.bind fun _ => composes.bodyOf.bind fun _ =>
    (roams.elements hb.all fun _ => beginElement).bind fun _ => leaveLoop.bind fun _ =>
      mark.bind fun _ => composes.settled.bind fun _ =>
        ite_of (J := Keeping _) pure (roams.passArray fun _ _ => seek)

theorem runOver {found : Option Span} {loop : Runner}
    (h : Keeps Walker.SameDocument loop.run) :
    Keeps Walker.SameDocument (Pass.runOver found loop) :=
  get.bind fun _ => by
    cases found with
    | none => exact mark
    | some _ => exact ite_of (J := Keeping _) (seek.bind fun _ => h.restoring seek) mark

/-- A node whose loops and children keep the shape and the document keeps them. -/
theorem ofParts {slot : Option Nat} {tests afterTests : List Test} {loops : List Runner}
    {children : List (String × Handler)} {afterLoops : List (Operand × Runner)}
    (hl : ∀ loop ∈ loops, Keeps Walker.SameDocument loop.run)
    (hc : ∀ child ∈ children, child.2.Keeps)
    (ha : ∀ loop ∈ afterLoops, Keeps Walker.SameDocument loop.2.run) :
    (Handler.ofParts slot tests loops children afterTests afterLoops).Keeps := by
  have h : (Handler.ofParts slot tests loops children afterTests afterLoops).All (Keeping _) :=
    roams.ofParts (fun _ _ => capture) (fun _ _ _ => mark) (fun _ _ _ => mark) hl
      (fun c hm => (hc c hm).all) fun loop hm _ => runOver (ha loop hm)
  exact ⟨h.read, h.finish, h.missing⟩

end Keeps

/-- **The handler of any node keeps the shape and the document.** -/
theorem Node.keeps (n : Node) : n.handler.Keeps := by
  induction n using Node.induct with
  | h n children loops afterLoops =>
    have hloop (l : Loop) (hb : l.body.handler.Keeps) :
        Keeps Walker.SameDocument l.runner.run := by
      rw [l.runner_eq]
      exact Keeps.runLoop hb
    rw [n.handler_eq]
    refine Keeps.ofParts (fun r hr => ?_) (fun child hc => ?_) fun r hr => ?_
    · obtain ⟨l, hl, rfl⟩ := List.mem_map.mp hr
      exact hloop l (loops l hl)
    · obtain ⟨c, hm, rfl⟩ := List.mem_map.mp hc
      exact children c hm
    · obtain ⟨l, hl, rfl⟩ := List.mem_map.mp hr
      exact hloop l (afterLoops l hl)

/-- **A walk keeps the shape**, whatever the plan and the bytes are and however it ends. -/
theorem Plan.sameShape_walk (p : Plan) (D : Decimals) (w : Walker) (data : Bytes) :
    w.SameShape (p.walk D w data).2 := by
  have hstart : w.SameShape { w with cursor := .start data, trail := [] } := ⟨rfl, rfl, rfl⟩
  exact hstart.trans (Keeps.roams.document p.root.keeps.all (p.setting D data) _).toSameShape

/-! ## 6. Matchers that have been used -/

namespace Matcher

variable {m : Matcher} {D : Decimals}

/-- The walker has the shape that the plan calls for. -/
def Shaped (m : Matcher) : Prop := (Walker.fresh m.plan).SameShape m.walker

theorem shaped_fresh (p : Plan) : (fresh p).Shaped := .refl _

theorem plan_run (m : Matcher) (data : Bytes) : (m.run D data).2.plan = m.plan := by
  unfold run
  split <;> rfl

theorem Shaped.run (h : m.Shaped) (D : Decimals) (data : Bytes) : (m.run D data).2.Shaped := by
  unfold Matcher.run
  split
  · exact h
  · exact h.trans (m.plan.sameShape_walk D m.walker data)

/-- **A matcher that is reset is a new one**, whatever it has been used for. -/
theorem Shaped.reset (h : m.Shaped) : m.reset = fresh m.plan := by
  obtain ⟨plan, ⟨cursor, ⟨tree, marks, stall⟩, slots, trail⟩, used⟩ := m
  obtain ⟨ht, hm, hs⟩ := h
  simp only [Walker.fresh, State.fresh, Array.size_replicate] at ht hm hs
  subst ht
  have hmarks : marks.mapIdx (fun _ _ => Mark.unknown) =
      Array.replicate plan.tree.size Mark.unknown := by
    rw [← hm]
    exact Array.ext (by simp) fun i _ _ => by simp
  have hslots : slots.map (fun _ => (none : Option Span)) = Array.replicate plan.slots none := by
    rw [← hs]
    exact Array.ext (by simp) fun i _ _ => by simp
  simp only [Matcher.reset, fresh, Walker.fresh, State.fresh, State.reset, State.update,
    State.withStall, hmarks, hslots]

theorem reset_run (p : Plan) (data : Bytes) : ((fresh p).run D data).2.reset = fresh p := by
  have h := ((shaped_fresh p).run D data).reset
  rwa [plan_run] at h

end Matcher

end Sift
