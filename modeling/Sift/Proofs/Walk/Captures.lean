import Mathlib
import Sift.Standard
import Sift.Proofs.Walk.Turning
import Sift.Proofs.Walk.Landing
import Sift.Proofs.Plan.Correspondence
import Sift.Proofs.AnyBytes

/-!
# Captured values are read again as they were

A captured value is kept as its span and read again from the document when it is needed. This gives
the same value, whatever the bytes around it are and whatever the order of the children is, for as
long as the slot is not emptied (`Plan.run_replays`).

* `Slots.after`: what the slots hold, told by what the walk has done.
* `Ledger.Faithful`: the trail tells the truth. What is looked at is there, only the slots of a loop
  are emptied when it turns to an element, and what is captured is the value of its span.
* `Upholding`, `Holds`: parts of walks keep this up, and go forward. A container ends behind its first
  token wherever the loops in it have sought, so that its span is never empty.
* `Handler.Records`, `Runner.Records`: what handlers and runners do. A handler reads only tokens that
  the walk has just taken, and captures before the walk goes anywhere else.
-/

namespace Sift

open Walk

variable {α β : Type} {s : Setting} {w w' : Walker} {P : Nat → Prop} {low : Nat}

/-! ## 1. What the slots hold -/

/-- What the slots hold once these things have been done, the latest first. -/
def Slots.after (slots : Slots) : List Event → Slots
  | [] => slots
  | .captured i span _ :: earlier => (slots.after earlier).setIfInBounds i (some span)
  | .began _ _ _ now :: _ => now
  | _ :: earlier => slots.after earlier

/-- A loop that has the slot turns to an element. -/
def Event.Empties (loops : List Loop) (i : Nat) : Event → Prop
  | .began bucket _ _ _ => ∃ l ∈ loops, l.bucket = bucket ∧ i ∈ l.locals
  | _ => False

/-- What is given of a match: the document, the slots at the start, and the loops that there are. -/
structure Ledger where
  data : Bytes
  slots : Slots
  loops : List Loop
  locals : ∀ l ∈ loops, ∀ i ∈ l.locals, i < slots.size

variable {g : Ledger}

/-- An event tells the truth of these slots. -/
def Event.Told (g : Ledger) (slots : Slots) : Event → Prop
  | .captured i span v =>
    slots[i]? = some none ∧ span.isInside g.data = true ∧ span.value g.data = v
  | .fetched _ i found => slots[i]? = some found
  | .began bucket _ _ now => ∃ l ∈ g.loops, l.bucket = bucket ∧ now = slots.emptied l.locals
  | _ => True

namespace Ledger

/-- **A trail tells the truth** throughout. -/
def Faithful (g : Ledger) : List Event → Prop
  | [] => True
  | e :: earlier => e.Told g (g.slots.after earlier) ∧ g.Faithful earlier

variable {i : Nat} {earlier : List Event}

theorem Faithful.size_after : ∀ {trail : List Event}, g.Faithful trail →
    (g.slots.after trail).size = g.slots.size
  | [], _ => rfl
  | e :: earlier, ⟨he, h⟩ => by
    cases e with
    | captured i span v => exact Array.size_setIfInBounds.trans h.size_after
    | began bucket first marks now =>
      obtain ⟨l, -, -, hnow⟩ := he
      exact (congrArg Array.size hnow).trans (Slots.size_emptied.trans h.size_after)
    | _ => exact h.size_after

/-- What was there earlier told the truth then. -/
theorem Faithful.before : ∀ {later : List Event}, g.Faithful (later ++ earlier) →
    g.Faithful earlier
  | [], h => h
  | _ :: _, ⟨_, h⟩ => Faithful.before h

/-- **A slot holds what it has captured** as long as no loop empties it. -/
theorem Faithful.kept {span : Span} : ∀ {between : List Event}, g.Faithful (between ++ earlier) →
    (g.slots.after earlier)[i]? = some (some span) → (∀ e ∈ between, ¬ e.Empties g.loops i) →
      (g.slots.after (between ++ earlier))[i]? = some (some span)
  | [], _, hi, _ => hi
  | e :: between, ⟨he, h⟩, hi, hno => by
    have held := h.kept hi fun e' hm => hno e' (List.mem_cons_of_mem e hm)
    cases e with
    | captured j other v =>
      -- only empty slots are filled, and the slot has been full since
      have hne : j ≠ i := fun hji => by
        have hempty : (g.slots.after (between ++ earlier))[j]? = some none := he.1
        rw [hji, held] at hempty
        cases hempty
      exact (Array.getElem?_setIfInBounds_ne hne).trans held
    | began bucket first marks now =>
      obtain ⟨l, hl, hb, hnow⟩ := he
      have hout : i ∉ l.locals := fun hm => hno _ List.mem_cons_self ⟨l, hl, hb, hm⟩
      exact (congrArg (·[i]?) hnow).trans ((Slots.emptied_of_not_mem hout).trans held)
    | _ => exact held

end Ledger

/-! ## 2. Walkers -/

/-- **The walker is as its trail tells**, inside the document, and `P` holds of its position. -/
structure Walker.Recorded (g : Ledger) (P : Nat → Prop) (w : Walker) : Prop where
  data : w.cursor.data = g.data
  inside : w.cursor.Inside
  slots : w.slots = g.slots.after w.trail
  faithful : g.Faithful w.trail
  position : P w.cursor.position

namespace Walker.Recorded

theorem imp {Q : Nat → Prop} (h : w.Recorded g P) (hq : ∀ p, P p → Q p) : w.Recorded g Q :=
  { h with position := hq _ h.position }

/-- The walker looks at something. -/
theorem look (h : w.Recorded g P) {e : Event} (he : e.Idle w.slots) :
    Walker.Recorded g P { w with trail := e :: w.trail } := by
  have told : e.Told g (g.slots.after w.trail) := by
    rw [← h.slots]
    cases e with
    | captured | began => exact he.elim
    | fetched => exact he
    | _ => trivial
  refine ⟨h.data, h.inside, ?_, ⟨told, h.faithful⟩, h.position⟩
  cases e with
  | captured | began => exact he.elim
  | _ => exact h.slots

/-- The walker goes somewhere else in the document. -/
theorem goto {Q : Nat → Prop} (h : w.Recorded g P) {c : Cursor} (hd : c.data = w.cursor.data)
    (hi : c.Inside) (hq : Q c.position) : Walker.Recorded g Q { w with cursor := c } :=
  ⟨hd.trans h.data, hi, h.slots, h.faithful, hq⟩

theorem seek {Q : Nat → Prop} (h : w.Recorded g P) {position : Nat}
    (hq : Q (w.cursor.seek position).position) :
    Walker.Recorded g Q { w with cursor := w.cursor.seek position } :=
  h.goto rfl (w.cursor.seek_inside position) hq

end Walker.Recorded

/-- If the walker was as its trail tells, it is so still. -/
def Walker.Upholds (g : Ledger) (P : Nat → Prop) (w w' : Walker) : Prop :=
  w.Recorded g P → w'.Recorded g P

instance : Looking (Walker.Upholds g P) where
  refl _ h := h
  look he h := h.look he
  trans h h' hw := h' (h hw)

/-- **A part keeps up what the trail tells**, also where it fails. -/
abbrev Upholding (g : Ledger) (P : Nat → Prop) (α : Type) (m : Pass α) : Prop :=
  Keeping (Walker.Upholds g P) α m

/-- The bytes from a token up to an offset are in the document, and they are this value. -/
def Token.ReadAs (data : Bytes) (token : Token) (v : Value) (stop : Nat) : Prop :=
  (Span.between token.offset stop).isInside data = true ∧
    (Span.between token.offset stop).value data = v

namespace Upholding

theorem composes : Composes (Upholding g P) := Keeps.composes

theorem mark {b : Nat} {v : Bool} : Upholding g P Unit (Pass.mark b v) :=
  Keeps.mark_of fun _ _ _ _ h => ⟨h.data, h.inside, h.slots, ⟨trivial, h.faithful⟩, h.position⟩

/-- **A capture** of the value that has been read up to here. -/
theorem capture {token : Token} {v : Value} {stop : Nat} (hv : token.ReadAs g.data v stop)
    (slot : Option Nat) : Upholding g (· = stop) Unit (Walk.capture token v slot) := by
  cases slot with
  | none => exact composes.pure ()
  | some slot =>
    intro s w h
    unfold Walk.capture
    rw [outcome_bind, outcome_slotAt]
    cases hf : w.slots[slot]? with
    | none => exact h
    | some found =>
      cases found with
      | some _ => exact h
      | none =>
        have hposition : w.cursor.position = stop := h.position
        obtain ⟨hlt, hle⟩ := Span.isInside_between.mp hv.1
        have hspan : (spanFrom token.offset : Pass Span).outcome s w =
            (.ok (.between token.offset stop), w) := by
          rw [← hposition]
          exact outcome_spanFrom ⟨by omega, h.inside⟩
        show ((spanFrom token.offset >>= _ : Pass Unit).outcome s w).2.Recorded g (· = stop)
        rw [outcome_bind, hspan]
        refine ⟨h.data, h.inside, ?_, ⟨⟨h.slots ▸ hf, hv⟩, h.faithful⟩, h.position⟩
        exact congrArg (Array.setIfInBounds · slot (some (Span.between token.offset stop))) h.slots

/-- **Turning to an element** of one of the loops. -/
theorem beginElement {l : Loop} (hl : l ∈ g.loops) {first : Token} :
    Upholding g P Unit (Walk.beginElement l.bucket l.locals first) := fun s w h => by
  have hin : ∀ i ∈ l.locals, i < w.slots.size := fun i hi => by
    rw [h.slots, h.faithful.size_after]
    exact g.locals l hl i hi
  rw [outcome_beginElement hin]
  exact ⟨h.data, h.inside, rfl, ⟨⟨l, hl, rfl, by rw [h.slots]⟩, h.faithful⟩, h.position⟩

/-- **Going forward** from a position. -/
theorem proceeds : Proceeds (Upholding g (low ≤ ·)) where
  toComposes := composes
  step s w h := by
    rw [outcome_step]
    obtain ⟨hin, hle⟩ := Cursor.step_advances h.inside
    exact (h.goto w.cursor.step_data hin (Nat.le_trans h.position hle)).look (e := .stepped) trivial
  skipContainer s w h := by
    rw [outcome_skipContainer]
    obtain ⟨hin, hle⟩ := Cursor.skipContainer_advances h.inside
    exact (h.goto w.cursor.skipContainer_data hin (Nat.le_trans h.position hle)).look
      (e := .skipped) trivial

/-- Going back, but not too far. -/
theorem seek {position : Nat} (hp : low ≤ position) :
    Upholding g (low ≤ ·) Unit (Walk.seek position) :=
  Keeps.modify fun _ h => h.seek (Nat.le_min.mpr ⟨hp, Nat.le_trans h.position h.inside⟩)

end Upholding

/-! ## 3. Parts that read -/

/-- A token of the document, no earlier than `low`, has just been read. -/
structure Walker.Took (g : Ledger) (low : Nat) (token : Token) (w : Walker) : Prop where
  position : w.cursor.position = token.stop
  low : low ≤ token.offset
  next : ∃ pos, Token.Next g.data pos token

/-- **What comes of a part that reads on from `low`**: it keeps up what the trail tells, and `Q` holds
    where it ends. -/
structure Holds (g : Ledger) (low : Nat) (s : Setting) (w : Walker) (m : Pass α)
    (Q : α → Walker → Prop) : Prop where
  recorded : (m.outcome s w).2.Recorded g (low ≤ ·)
  ends : Ends s w m Q

section Holds

variable {m : Pass α} {Q : α → Walker → Prop}

theorem Holds.bind {f : α → Pass β} {Q' : β → Walker → Prop} (h : Holds g low s w m Q)
    (hf : ∀ a w', w'.Recorded g (low ≤ ·) → Q a w' → Holds g low s w' (f a) Q') :
    Holds g low s w (m >>= f) Q' := by
  obtain ⟨hr, he⟩ := h
  have hb : Ends s w m fun a w' => Holds g low s w' (f a) Q' := fun a w' ho =>
    hf a w' (by rwa [ho] at hr) (he a w' ho)
  refine ⟨?_, hb.bind fun _ _ h => h.ends⟩
  rw [outcome_bind]
  split
  · next heq => exact (hb _ _ heq).recorded
  · next heq => rwa [heq] at hr

theorem Upholding.holds (h : Upholding g (low ≤ ·) α m) (hw : w.Recorded g (low ≤ ·)) :
    Holds g low s w m fun _ _ => True := ⟨h s w hw, fun _ _ _ => trivial⟩

/-- What is told of a part with every walker is told of the part. -/
theorem Upholding.of_holds (h : ∀ s w, w.Recorded g (low ≤ ·) → Holds g low s w m Q) :
    Upholding g (low ≤ ·) α m := fun s w hw => (h s w hw).recorded

theorem holds_pure {a : α} (hw : w.Recorded g (low ≤ ·)) (h : Q a w) :
    Holds g low s w (pure a) Q := ⟨hw, ends_pure h⟩

theorem holds_fail {e : MatchError} (hw : w.Recorded g (low ≤ ·)) :
    Holds g low s w (fail e) Q := ⟨hw, ends_fail⟩

/-- What is read from further on is read from `low` on. -/
theorem Holds.lower {more : Nat} (h : Holds g more s w m Q) (hle : low ≤ more) :
    Holds g low s w m Q := ⟨h.recorded.imp fun _ => Nat.le_trans hle, h.ends⟩

/-- **Turn after turn**, where each keeps `I`. -/
theorem holds_iterate {next : α → Pass (α ⊕ β)} {I : α → Walker → Prop} {Q : β → Walker → Prop}
    (h : ∀ a w, w.Recorded g (low ≤ ·) → I a w →
      Holds g low s w (next a) fun r w' => Sum.elim (I · w') (Q · w') r) :
    ∀ (fuel : Nat) {a : α} {w : Walker}, w.Recorded g (low ≤ ·) → I a w →
      Holds g low s w (iterate next fuel a) Q
  | 0, _, _, hw, _ => holds_fail hw
  | fuel + 1, a, w, hw, hi => (h a w hw hi).bind fun r w' hw' hr => by
    cases r with
    | inl a => exact holds_iterate h fuel hw' hr
    | inr b => exact holds_pure hw' hr

theorem holds_repeatedly {next : α → Pass (α ⊕ β)} {a : α} {Q : β → Walker → Prop}
    (h : Holds g low s w (iterate next s.bound a) Q) : Holds g low s w (repeatedly next a) Q :=
  ⟨h.recorded, h.ends⟩

end Holds

/-- **A step** takes a token. -/
theorem holds_step (hw : w.Recorded g (low ≤ ·)) :
    Holds g low s w step fun token w' => w'.Took g low token := by
  refine ⟨Upholding.proceeds.step s w hw, fun token w' ho => ?_⟩
  rw [outcome_step] at ho
  rcases hs : w.cursor.step with ⟨e | token', c⟩
  · rw [hs] at ho
    cases ho
  · rw [hs] at ho
    cases ho
    obtain ⟨-, -, hp, hle, -⟩ := Cursor.step_bounds hs hw.inside
    obtain ⟨rest, hl, -, -⟩ := Cursor.step_ok hs
    rw [w.cursor.rest_eq, hw.data] at hl
    exact ⟨hp, Nat.le_trans hw.position hle, _, rest, hl⟩

theorem holds_nextPart {closing : TokenKind} {e : Expected} (hw : w.Recorded g (low ≤ ·)) :
    Holds g low s w (nextPart closing e) fun r w' => ∀ t, r = some t → w'.Took g low t :=
  (holds_step hw).bind fun _ w₁ h₁ _ => by
    split
    · refine (holds_step h₁).bind fun t w₂ h₂ ht => holds_pure h₂ fun t' h => ?_
      exact Option.some.inj h ▸ ht
    · split
      · exact holds_pure h₁ nofun
      · exact holds_fail h₁

theorem holds_memberStart {key : Token} (hw : w.Recorded g (low ≤ ·)) :
    Holds g low s w (memberStart key) fun first w' => w'.Took g low first := by
  unfold memberStart
  split
  · refine (holds_step hw).bind fun _ w₁ h₁ _ => ?_
    split
    · exact holds_step h₁
    · exact holds_fail h₁
  · exact holds_fail hw

/-! ## 4. Handlers and runners -/

/-- **A handler keeps up what the trail tells.** It reads the value whose first token has just been
    taken, and then the walk stands where that value ends. There it finishes with the value, and comes
    back there. -/
structure Handler.Records (g : Ledger) (h : Handler) : Prop where
  read : ∀ (low : Nat) (s : Setting) (w : Walker) (token : Token), w.Recorded g (low ≤ ·) →
    w.Took g low token → Holds g low s w (h.read token) fun r w' =>
      ∀ v, r = some v → token.ReadAs g.data v w'.cursor.position
  finish : ∀ (token : Token) (v : Value) (stop : Nat), token.ReadAs g.data v stop →
    Upholding g (· = stop) Unit (h.finish token v)
  missing : ∀ P : Nat → Prop, Upholding g P Unit h.missing

/-- A runner keeps up what the trail tells, and does not go back to before where it begins. -/
def Runner.Records (g : Ledger) (r : Runner) : Prop :=
  ∀ low : Nat, Upholding g (low ≤ ·) Unit r.run

namespace Handler.Records

variable {h : Handler} (hh : h.Records g) {token : Token}
include hh

/-- Finishing with a value where it ends. -/
theorem finishes {v : Value} (hw : w.Recorded g (low ≤ ·))
    (hv : token.ReadAs g.data v w.cursor.position) :
    Holds g low s w (h.finish token v) fun _ _ => True := by
  -- finishing keeps to the position where the value ends, which is no earlier than `low`
  have finished := hh.finish token v _ hv s w { hw with position := rfl }
  refine ⟨finished.imp fun p hp => ?_, fun _ _ _ => trivial⟩
  rw [hp]
  exact hw.position

theorem handle (hw : w.Recorded g (low ≤ ·)) (ht : w.Took g low token) :
    Holds g low s w (h.handle token) fun _ _ => True :=
  (hh.read low s w token hw ht).bind fun r w₁ h₁ hr => by
    cases r with
    | none => exact holds_pure h₁ trivial
    | some v => exact hh.finishes h₁ (hr v rfl)

/-- **A whole document.** -/
theorem document (hw : w.Recorded g (0 ≤ ·)) : Holds g 0 s w (Pass.document h) fun _ _ => True := by
  have opens : Holds g 0 s w opening fun token w' => w'.Took g 0 token :=
    (holds_step hw).bind fun token w₁ h₁ ht => by
      split
      · exact holds_fail h₁
      · exact holds_pure h₁ ht
  refine opens.bind fun token w₁ h₁ ht => (hh.read 0 s w₁ token h₁ ht).bind fun r w₂ h₂ hr => ?_
  cases r with
  | none => exact holds_pure h₂ trivial
  | some v =>
    have notes : Holds g 0 s w₂ (note .wholeRead) fun _ w' => w'.cursor = w₂.cursor :=
      ⟨Upholding.composes.whole s w₂ h₂, ends_of_outcome outcome_note rfl⟩
    refine notes.bind fun _ w₃ h₃ hc => ?_
    refine (hh.finishes h₃ (by rw [hc]; exact hr v rfl)).bind fun _ w₄ h₄ _ => ?_
    exact Upholding.proceeds.closing.holds h₄

end Handler.Records

namespace Upholding

/-- A loop over what has been captured comes back. -/
theorem runOver {found : Option Span} {loop : Runner} (h : loop.Records g) :
    Upholding g P Unit (Pass.runOver found loop) := Keeps.get_bind fun s w => by
  cases found with
  | none => exact mark s w
  | some span =>
    dsimp only
    split
    · intro hw
      -- the loop may go anywhere, so it is told of from the start of the document on, and what `P`
      -- tells of the position holds again once the walk has come back
      rw [outcome_bind]
      show Walker.Recorded g P ((restoring loop.run (Walk.seek w.cursor.position)).outcome s
        { w with cursor := w.cursor.seek (span.offset + 1) }).2
      rw [outcome_returning]
      have there := h 0 s _ (hw.seek (Nat.zero_le (w.cursor.seek (span.offset + 1)).position))
      refine there.seek ?_
      rw [Cursor.seek_position]
      · exact hw.position
      · rw [there.data, ← hw.data]
        exact hw.inside
    · exact mark s w

section Object

variable {children : List (String × Handler)} (hc : ∀ child ∈ children, child.2.Records g)
include hc

theorem memberValue {key first : Token} (hw : w.Recorded g (low ≤ ·)) (ht : w.Took g low first) :
    Holds g low s w (Pass.memberValue children key first) fun _ _ => True := by
  unfold Pass.memberValue
  split
  · next handler hfind =>
    obtain ⟨child, hm, rfl⟩ := Pass.mem_of_handlerOf hfind
    exact ((hc child hm).handle hw ht).bind fun _ _ h₁ _ => composes.settled.holds h₁
  · exact (proceeds.skipValue.holds hw).bind fun _ _ h₁ _ => holds_pure h₁ trivial

theorem member (key : Token) :
    Upholding g (low ≤ ·) (Token ⊕ Bool) (Pass.member children key) :=
  of_holds (Q := fun _ _ => True) fun s w hw => by
    refine (holds_memberStart hw).bind fun first w₁ h₁ ht => ?_
    refine (memberValue hc h₁ ht).bind fun b w₂ h₂ _ => ?_
    refine Upholding.holds (ite_of (composes.pure _) (composes.bind proceeds.nextPart fun next => ?_)) h₂
    cases next with
    | some key => exact composes.pure _
    | none => exact composes.pure _

end Object

/-- Several loops over the array that has just been opened. -/
theorem runLoops {loops : List Runner} (hl : ∀ loop ∈ loops, loop.Records g) :
    Upholding g (low ≤ ·) Unit (Pass.runLoops loops) := fun s w hw => by
  have inline : Upholding g (low ≤ ·) Bool
      (Pass.untilSettled (Pass.runInline w.cursor.position) loops) :=
    composes.untilSettled fun loop hm => proceeds.runInline (seek hw.position) (hl loop hm low)
  exact composes.discard inline s w hw

end Upholding

/-! ## 5. Values -/

section Values

variable {token : Token} {make : Bytes → Value}
  (hmake : ∀ span : Span, span.offset = token.offset → span.value g.data = make (span.text g.data))
  (hlt : token.offset < token.stop)
include hmake hlt

/-- **A container that ends here**, behind its first token. -/
theorem holds_containerFrom (hw : w.Recorded g (token.stop ≤ ·)) :
    Holds g token.stop s w (Pass.containerFrom make token) fun r w' =>
      ∀ v, r = some v → token.ReadAs g.data v w'.cursor.position := by
  have hposition : token.stop ≤ w.cursor.position := hw.position
  have hspan : (spanFrom token.offset : Pass Span).outcome s w =
      (.ok (.between token.offset w.cursor.position), w) := outcome_spanFrom ⟨by omega, hw.inside⟩
  have ho : (Pass.containerFrom make token).outcome s w =
      (.ok (some (make ((Span.between token.offset w.cursor.position).text w.cursor.data))), w) := by
    unfold Pass.containerFrom
    rw [outcome_bind, hspan]
    rfl
  refine ⟨by rw [ho]; exact hw, ends_of_outcome ho fun v hv => ⟨?_, ?_⟩⟩
  · exact Span.isInside_between.mpr ⟨by omega, hw.data ▸ hw.inside⟩
  · rw [hmake _ rfl, ← Option.some.inj hv, hw.data]

theorem holds_container {inside : Pass Unit} (hin : Upholding g (token.stop ≤ ·) Unit inside)
    (hw : w.Recorded g (token.stop ≤ ·)) :
    Holds g token.stop s w (Pass.container make token inside) fun r w' =>
      ∀ v, r = some v → token.ReadAs g.data v w'.cursor.position :=
  (hin.holds hw).bind fun _ _ h₁ _ => (Upholding.composes.settled.holds h₁).bind fun _ _ h₂ _ => by
    split
    · exact holds_pure h₂ nofun
    · exact holds_containerFrom hmake hlt h₂

theorem holds_closedContainer (hw : w.Recorded g (token.stop ≤ ·)) :
    Holds g token.stop s w (Pass.closedContainer make token) fun r w' =>
      ∀ v, r = some v → token.ReadAs g.data v w'.cursor.position :=
  (Upholding.proceeds.skipContainer.holds hw).bind fun _ _ h₁ _ => holds_containerFrom hmake hlt h₁

end Values

/-- A scalar is its token. -/
theorem Walker.Took.readAs_scalar {token : Token} (ht : w.Took g low token)
    (hk : token.kind.isScalar = true) :
    token.ReadAs g.data (.ofToken token) w.cursor.position := by
  obtain ⟨pos, hn⟩ := ht.next
  obtain ⟨-, hlt, hle, -⟩ := hn.split (TokenKind.of_isScalar hk).1
  rw [ht.position]
  exact ⟨Span.isInside_between.mpr ⟨hlt, hle⟩, hn.value_of_scalar hk rfl⟩

/-- **Reading a value** whose first token has just been taken. -/
theorem holds_readValue {loops : List Runner} {children : List (String × Handler)} {token : Token}
    (hl : ∀ loop ∈ loops, loop.Records g) (hc : ∀ child ∈ children, child.2.Records g)
    (hw : w.Recorded g (low ≤ ·)) (ht : w.Took g low token) :
    Holds g low s w (Pass.readValue loops children token) fun r w' =>
      ∀ v, r = some v → token.ReadAs g.data v w'.cursor.position := by
  have behind : w.Recorded g (token.stop ≤ ·) :=
    { hw with position := Nat.le_of_eq ht.position.symm }
  have hstop : token.stop = token.offset + token.text.length := rfl
  have hle : low ≤ token.stop := Nat.le_trans ht.low (by omega)
  obtain ⟨pos, hn⟩ := ht.next
  unfold Pass.readValue
  split
  · next hk =>
    have hlt := (hn.split (by rw [hk]; exact TokenKind.noConfusion)).2.1
    have hmake (span : Span) (hs : span.offset = token.offset) :
        span.value g.data = .object (span.text g.data) := hn.value_of_object hk hs
    split
    · exact (holds_closedContainer hmake hlt behind).lower hle
    · exact (holds_container hmake hlt (Upholding.proceeds.members (Upholding.member hc)
        fun child hm => (hc child hm).missing _) behind).lower hle
  · next hk =>
    have hlt := (hn.split (by rw [hk]; exact TokenKind.noConfusion)).2.1
    have hmake (span : Span) (hs : span.offset = token.offset) :
        span.value g.data = .array (span.text g.data) := hn.value_of_array hk hs
    split
    · exact (holds_closedContainer hmake hlt behind).lower hle
    · exact (holds_container hmake hlt (Upholding.runLoops hl) behind).lower hle
  · split
    · next hs => exact holds_pure hw fun v hv => Option.some.inj hv ▸ ht.readAs_scalar hs
    · exact holds_fail hw

/-- **What a node does** is put together from what its loops and children do. -/
theorem Handler.Records.ofParts {slot : Option Nat} {tests afterTests : List Test}
    {loops : List Runner} {children : List (String × Handler)} {afterLoops : List (Operand × Runner)}
    (hl : ∀ loop ∈ loops, loop.Records g) (hc : ∀ child ∈ children, child.2.Records g)
    (ha : ∀ loop ∈ afterLoops, loop.2.Records g) :
    (Handler.ofParts slot tests loops children afterTests afterLoops).Records g := by
  have after (P : Nat → Prop) : Upholding g P Unit (Pass.after afterTests afterLoops) :=
    Upholding.composes.after (fun _ _ _ => Upholding.mark)
      fun loop hm _ => Upholding.runOver (ha loop hm)
  have missing (P : Nat → Prop) (child : String × Handler) (hm : child ∈ children) :
      Upholding g P Unit child.2.missing := (hc child hm).missing P
  refine ⟨fun _ _ _ _ hw ht => holds_readValue hl hc hw ht, fun token v stop hv => ?_, fun P => ?_⟩
  · exact Upholding.composes.finishValue (fun _ _ _ => Upholding.mark) (fun _ _ _ => Upholding.mark)
      (missing _) (after _) (Upholding.capture hv slot)
  · exact Upholding.composes.resolveMissing (fun _ _ _ => Upholding.mark)
      (fun _ _ _ => Upholding.mark) (missing P) (after P)

/-! ## 6. Loops and nodes -/

section Loops

variable {l : Loop} (hl : l ∈ g.loops) (hb : l.body.handler.Records g)
include hl hb

/-- **An element** whose first token has just been taken. What decides the loop is not before it. -/
theorem holds_element {body : Nat} {turn : Token × Bool} (hw : w.Recorded g (low ≤ ·))
    (ht : w.Took g low turn.1) :
    Holds g low s w (Pass.element l.bucket body l.mode l.locals l.body.handler turn) fun r w' =>
      Sum.elim (fun turn => w'.Took g low turn.1)
        (fun verdict => ∀ first, verdict.decider = some first → low ≤ first.offset) r := by
  obtain ⟨first, anySatisfied⟩ := turn
  have begins : Holds g low s w (beginElement l.bucket l.locals first) fun _ w' =>
      w'.Took g low first := by
    refine ⟨Upholding.beginElement hl s w hw, fun _ w' ho => ⟨?_, ht.low, ht.next⟩⟩
    have stays : Upholding g (· = first.stop) Unit (beginElement l.bucket l.locals first) :=
      Upholding.beginElement hl
    have there := stays s w { hw with position := ht.position }
    rw [ho] at there
    exact there.position
  -- a decided walk seeks the element again, so the bound has to hold of its first token
  refine begins.bind fun _ w₁ h₁ ht₁ => (hb.handle h₁ ht₁).bind fun _ w₂ h₂ _ => ?_
  refine (Upholding.composes.settled.holds h₂).bind fun early w₃ h₃ _ => ?_
  refine ((Upholding.composes.judge _ _).holds h₃).bind fun satisfied w₄ h₄ _ => ?_
  cases l.mode.decision satisfied with
  | some answer => exact holds_pure h₄ fun d hd => Option.some.inj hd ▸ ht.low
  | none =>
    have passes : Upholding g (low ≤ ·) Unit (passRest early first) :=
      Upholding.proceeds.passRest (Upholding.seek ht.low)
    refine (passes.holds h₄).bind fun _ w₅ h₅ _ => (holds_nextPart h₅).bind fun next w₆ h₆ hn => ?_
    cases next with
    | some next => exact holds_pure h₆ (hn next rfl)
    | none => exact holds_pure h₆ nofun

theorem holds_elements {body : Nat} (hw : w.Recorded g (low ≤ ·)) :
    Holds g low s w (Pass.elements l.bucket body l.mode l.locals l.body.handler) fun verdict _ =>
      ∀ first, verdict.decider = some first → low ≤ first.offset :=
  (holds_step hw).bind fun first w₁ h₁ ht => by
    split
    · exact holds_pure h₁ nofun
    · exact holds_repeatedly (holds_iterate (I := fun turn w => w.Took g low turn.1)
        (fun _ _ hw ht => holds_element hl hb hw ht) s.bound (a := (first, false)) h₁ ht)

/-- **A whole loop**, when it holds of its body. -/
theorem Loop.records : l.runner.Records g := fun low => by
  rw [l.runner_eq]
  refine Upholding.of_holds (Q := fun _ _ => True) fun s w hw => ?_
  have enter : Upholding g (low ≤ ·) (Option Nat) (exchangeStall (some l.bucket)) :=
    fun _ _ h => ⟨h.data, h.inside, h.slots, h.faithful, h.position⟩
  have leave (outer : Option Nat) : Upholding g (low ≤ ·) Unit (leaveLoop l.bucket outer) :=
    fun _ _ h => ⟨h.data, h.inside, h.slots, h.faithful, h.position⟩
  refine (enter.holds hw).bind fun outer w₁ h₁ _ => ?_
  refine (Upholding.composes.bodyOf.holds h₁).bind fun body w₂ h₂ _ => ?_
  refine (holds_elements hl hb h₂).bind fun verdict w₃ h₃ hd => ?_
  have rest := Upholding.composes.bind (leave outer) fun _ =>
    Upholding.composes.bind (Upholding.mark (b := l.bucket) (v := verdict.answer)) fun _ =>
      Upholding.composes.bind Upholding.composes.settled fun settled =>
        ite_of (p := settled = true) (Upholding.composes.pure ())
          (Upholding.proceeds.passArray fun first h => Upholding.seek (hd first h))
  exact rest.holds h₃

end Loops

/-- **What a node does keeps up what the trail tells.** -/
theorem Node.records (n : Node) : (∀ l ∈ n.everyLoop, l ∈ g.loops) → n.handler.Records g := by
  induction n using Node.induct with
  | h n children loops afterLoops =>
    intro h
    have runs {l : Loop} (hl : l ∈ n.allLoops)
        (hb : (∀ k ∈ l.body.everyLoop, k ∈ g.loops) → l.body.handler.Records g) :
        l.runner.Records g :=
      Loop.records (h l (everyLoop_of_own hl (.inl rfl)))
        (hb fun k hk => h k (everyLoop_of_own hl (.inr hk)))
    rw [n.handler_eq]
    refine .ofParts (fun r hr => ?_) (fun child hc => ?_) fun r hr => ?_
    · obtain ⟨l, hl, rfl⟩ := List.mem_map.mp hr
      exact runs (List.mem_append_left _ hl) (loops l hl)
    · obtain ⟨c, hm, rfl⟩ := List.mem_map.mp hc
      exact children c hm fun l hl => h l (everyLoop_of_child hm hl)
    · obtain ⟨l, hl, rfl⟩ := List.mem_map.mp hr
      exact runs (List.mem_append_right _ hl) (afterLoops l hl)

/-! ## 7. Matches -/

namespace Plan

variable {kit : Toolkit} {p q : Plan} {es : List Expr}

/-- The ledger of a match from the start. -/
def Compiled.ledger (h : p.Compiled kit es) (data : Bytes) : Ledger where
  data
  slots := (Walker.fresh p).slots
  loops := p.everyLoop
  locals l hl i hi := by
    have hroot : p.root.Fits (p.course kit data) none := h.fits
    obtain ⟨stall, hfits, -, -⟩ := hroot.everyLoop p.root hl
    rw [show (Walker.fresh p).slots.size = p.slots from Array.size_replicate]
    exact hfits.locals i hi

/-- **A match is as its trail tells.** -/
theorem Compiled.recorded (h : p.Compiled kit es) (data : Bytes) :
    ((Matcher.fresh p).run kit.decimals data).2.walker.Recorded (h.ledger data) (0 ≤ ·) := by
  rw [Matcher.run_fresh]
  have hroot : p.root.handler.Records (h.ledger data) := p.root.records fun _ hl => hl
  have start : Walker.Recorded (h.ledger data) (0 ≤ ·)
      { Walker.fresh p with cursor := .start data, trail := [] } :=
    ⟨rfl, Nat.zero_le _, rfl, trivial, Nat.zero_le _⟩
  exact (hroot.document start).recorded

/-- **What has been captured is replayed**, in a match of any bytes, also in one that fails.
    `Slots.after` tells what the slots hold at any moment: so they are when the match is over, and so
    they are whenever a slot is looked at. Where a value is captured for a node, its span lies in the
    document and gives that value, and the slot gives it at every later moment until a loop that has
    the slot turns to an element. -/
theorem run_replays (hq : compileAll kit es = .ok q) (hr : q.Reordered p) (data : Bytes)
    {w : Walker} (hw : ((Matcher.fresh p).run kit.decimals data).2.walker = w) :
    w.slots = (Walker.fresh p).slots.after w.trail ∧
    (∀ later reader i found earlier, w.trail = later ++ .fetched reader i found :: earlier →
      ((Walker.fresh p).slots.after earlier)[i]? = some found) ∧
    ∀ later between i span v earlier,
      w.trail = later ++ (between ++ .captured i span v :: earlier) →
        span.isInside data = true ∧ span.value data = v ∧
          ((∀ e ∈ between, ¬ e.Empties p.everyLoop i) → ((Walker.fresh p).slots.after
            (between ++ .captured i span v :: earlier)).value data i = v) := by
  have compiled := compiled_of_reordered hq hr
  have h := compiled.recorded data
  rw [hw] at h
  refine ⟨h.slots, fun later reader i found earlier ht => ?_, fun later between i span v earlier ht => ?_⟩
  · have looked : (compiled.ledger data).Faithful (.fetched reader i found :: earlier) :=
      Ledger.Faithful.before (ht ▸ h.faithful)
    exact looked.1
  · have since : (compiled.ledger data).Faithful (between ++ .captured i span v :: earlier) :=
      Ledger.Faithful.before (ht ▸ h.faithful)
    have captured : (compiled.ledger data).Faithful (.captured i span v :: earlier) := since.before
    obtain ⟨hempty, hin, hvalue⟩ := captured.1
    have filled : ((Walker.fresh p).slots.after (.captured i span v :: earlier))[i]? =
        some (some span) := by
      obtain ⟨hlt, -⟩ := Array.getElem?_eq_some_iff.mp hempty
      exact Array.getElem?_setIfInBounds_self_of_lt hlt
    refine ⟨hin, hvalue, fun hno => ?_⟩
    have held : ((Walker.fresh p).slots.after (between ++ .captured i span v :: earlier))[i]? =
        some (some span) := since.kept filled hno
    rw [Slots.value, held]
    exact hvalue

/-- Two members are the same. -/
def sameMembers : Expr :=
  .relation .equals (.field ⟨Variable.root, ["a"]⟩) (.field ⟨Variable.root, ["b"]⟩)

/-- The text `{"a":{},"b":[`, which breaks off. -/
def brokenOff : Bytes :=
  ['\x7b', '"', 'a', '"', ':', '\x7b', '\x7d', ',', '"', 'b', '"', ':', '['].map Char.toUInt8

/-- The first member is captured, and can be replayed after the match has failed. -/
theorem run_replays_brokenOff : ∃ p w, compileAll .standard [sameMembers] = .ok p ∧
    ((Matcher.fresh p).run .standard brokenOff).2.walker = w ∧
    .captured 0 ⟨5, 2⟩ (.object (['\x7b', '\x7d'].map Char.toUInt8)) ∈ w.trail ∧
    w.slots.value brokenOff 0 = .object (['\x7b', '\x7d'].map Char.toUInt8) := by
  obtain ⟨p, hp⟩ := (compileAll_isOk .standard [sameMembers]).mpr (by
    simp [sameMembers, Expr.AllFormed, Expr.Formed, Expr.IsOperand])
  have htrail := eq_of_map hp
    (f := fun p => ((Matcher.fresh p).run .standard brokenOff).2.walker.trail)
    (a := [] ++ ([.skipped, .stepped, .stepped, .stepped, .stepped] ++
      .captured 0 ⟨5, 2⟩ (.object (['\x7b', '\x7d'].map Char.toUInt8)) ::
        [.skipped, .stepped, .stepped, .stepped, .stepped])) (by cbv)
  obtain ⟨hslots, -, hcaptured⟩ := run_replays
    (w := ((Matcher.fresh p).run .standard brokenOff).2.walker) hp (.refl p) brokenOff rfl
  obtain ⟨-, -, hreplays⟩ := hcaptured _ _ _ _ _ _ htrail
  refine ⟨p, _, hp, rfl, ?_, ?_⟩
  · rw [htrail]
    simp
  · rw [hslots, htrail]
    exact hreplays (by simp [Event.Empties])

end Plan

end Sift
