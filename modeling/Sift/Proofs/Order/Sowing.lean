import Sift.Proofs.Order.Outlook
import Sift.Proofs.Order.Pair
import Sift.Proofs.Walk.Polling

/-!
# Parts of a walk that only mark buckets

`Walk.Sows c s k E B w m` says of a part of a walk that it marks buckets with values of which `E`
holds, and does nothing else: it comes back to where it was, and where it ends the buckets in `B`
are known.

So does a test (`sows_test`), a loop that has no array (`sows_deny`), and one that is run over an
array that has been captured (`sows_replay`), whatever happens while it runs. What the last can come
to is told by the slots that can be seen (`Loop.Gives`).
-/

namespace Sift

open Resolution

variable {c : Course} {s : Setting} {k : Outlook} {E E' : Nat → Bool → Prop} {B B' : Nat → Prop}
  {w w' : Walker}

namespace Walk

/-! ## 1. Marks -/

/-- Where a mark leaves a walk unsettled it goes on. -/
theorem meets_mark_awake {b : Nat} {v : Bool} : Meets s w (mark b v)
    (fun _ w' => s.isSettled w'.state = false) fun _ _ => True := by
  refine Meets.bind (meets_true (m := checkBucket b)) fun _ w₁ _ => ?_
  refine (meets_get (Q := fun u v => u = v) rfl).bind fun u w₂ h₂ => ?_
  subst h₂
  cases hm : u.state.mark b v with
  | error d => exact meets_fail trivial
  | ok state =>
    refine (meets_read (Q := fun t _ => t = s) rfl).bind fun t w₃ ht => ?_
    subst ht
    refine (meets_modify (Q := fun _ w' => w'.state = state) rfl).bind fun _ w₄ h₄ => ?_
    refine (meets_note (Q := fun _ w' => w'.state = state) h₄).bind fun _ w₅ h₅ => ?_
    split
    · exact meets_throw trivial
    · next hs =>
      refine meets_pure ?_
      rw [h₅]
      exact Bool.eq_false_iff.mpr hs

/-- What a mark leaves, told whether it settles the walk. It does not fail. -/
theorem meets_mark {F : Walker → Prop} {b : Nat} {v : Bool} (hfit : w.Fit c)
    (hb : c.Bucket w.state.stall b)
    (hu : w.state.get b = .unknown) : Meets s w (mark b v)
    (fun _ w' => (Marked b v w w' ∧ w'.Fit c) ∧ s.isSettled w'.state = false)
    (Stops F fun w' => (Marked b v w w' ∧ w'.Fit c) ∧ s.isSettled w'.state = true) := by
  have hsafe : Safe c s (fun _ => False) (fun _ => False) (fun _ => False) w (mark b v)
      (fun _ => Marked b v w) (Marked b v w) := safe_mark hfit hb hu
  refine (Meets.and hsafe meets_mark_awake).mono (fun _ w' h => ⟨⟨h.1.2.2, h.1.2.1⟩, h.2⟩)
    fun e w' h => ?_
  cases e with
  | settled => exact ⟨⟨h.1.2.2.2, h.1.2.1⟩, h.1.2.2.1⟩
  | failed e => exact h.1.1.elim

/-! ## 2. Sowing -/

/-- **A part of a walk that only marks buckets** and comes back to where it was. Where it ends, the
    walk is not settled and the buckets in `B` are known. It fails only in a loop that has waited. -/
def Sows (c : Course) (s : Setting) (k : Outlook) (E : Nat → Bool → Prop) (B : Nat → Prop)
    (w : Walker) (m : Walk Unit) : Prop :=
  Meets s w m (fun _ w' => (Sown c k E w w' ∧ SamePlace w w' ∧ ∀ b, B b → w'.Known b) ∧
      s.isSettled w'.state = false)
    (Stops (Replays c s k.waits) fun w' =>
      (Sown c k E w w' ∧ SamePlace w w') ∧ s.isSettled w'.state = true)

theorem Sows.mono {m : Walk Unit} (h : Sows c s k E B w m) (hE : ∀ b u, E b u → E' b u)
    (hB : ∀ b, B' b → B b) : Sows c s k E' B' w m :=
  Meets.mono h (fun _ _ h => ⟨⟨h.1.1.mono hE, h.1.2.1, fun b hb => h.1.2.2 b (hB b hb)⟩, h.2⟩)
    (Stops.mono fun _ h => ⟨⟨h.1.1.mono hE, h.1.2⟩, h.2⟩)

theorem sows_pure (hw : w.Under c k) (hs : s.isSettled w.state = false) (hB : ∀ b, B b → w.Known b) :
    Sows c s k E B w (pure ()) := meets_pure ⟨⟨.refl hw, rfl, hB⟩, hs⟩

/-- **One part after the other.** -/
theorem Sows.next {m m' : Walk Unit} (hk : k.Apt c s) (h : Sows c s k E B w m)
    (hB : ∀ b, B b → k.View c b)
    (hm : ∀ w', Sown c k E w w' → s.isSettled w'.state = false → Sows c s k E' B' w' m') :
    Sows c s k (fun b u => E b u ∨ E' b u) (fun b => B b ∨ B' b) w (m >>= fun _ => m') := by
  refine Meets.bind (Meets.mono h (fun _ _ h => h) (Stops.mono fun w' h => ?_)) fun _ w₁ h₁ => ?_
  · exact ⟨⟨h.1.1.mono fun _ _ => .inl, h.1.2⟩, h.2⟩
  · obtain ⟨⟨hsown₁, hp₁, hk₁⟩, hs₁⟩ := h₁
    refine Meets.mono (hm w₁ hsown₁ hs₁) (fun _ w₂ h₂ => ?_) (Stops.mono fun w₂ h₂ => ?_)
    · obtain ⟨⟨hsown₂, hp₂, hk₂⟩, hs₂⟩ := h₂
      refine ⟨⟨hsown₁.trans hk hsown₂, hp₂.trans hp₁, fun b hb => ?_⟩, hs₂⟩
      exact hb.elim (fun hb => hsown₂.known_of_known (hB b hb) (hk₁ b hb)) (hk₂ b)
    · obtain ⟨⟨hsown₂, hp₂⟩, hs₂⟩ := h₂
      exact ⟨⟨hsown₁.trans hk hsown₂, hp₂.trans hp₁⟩, hs₂⟩

/-- **A mark** is sown. -/
theorem sows_mark {b : Nat} {v : Bool} (hw : w.Under c k) (hb : c.Bucket k.stall b)
    (hu : w.state.get b = .unknown) :
    Sows c s k (fun b' u => b' = b ∧ u = v) (· = b) w (mark b v) := by
  have sown {w' : Walker} (hm : Marked b v w w') (hfit : w'.Fit c) :
      Sown c k (fun b' u => b' = b ∧ u = v) w w' ∧ SamePlace w w' :=
    ⟨.of_mark hb hw (fun _ _ => rfl) (fun _ _ => rfl) hm hfit, by rw [SamePlace, hm.cursor]⟩
  refine (meets_mark hw.fit (hw.markable hb) hu).mono (fun _ w' h => ?_) (Stops.mono fun w' h => ?_)
  · obtain ⟨⟨hm, hfit⟩, hs⟩ := h
    refine ⟨⟨(sown hm hfit).1, (sown hm hfit).2, ?_⟩, hs⟩
    rintro _ rfl
    exact hm.known
  · obtain ⟨⟨hm, hfit⟩, hs⟩ := h
    exact ⟨sown hm hfit, hs⟩

/-- A part that comes after slots have been looked at. -/
theorem Sows.after_looks {m : Walk Unit} {reader : Nat} {reads : List Nat}
    (hl : Looked reader reads w w') (h : Sows c s k E B w' m) :
    Meets s w' m (fun _ w'' => (Sown c k E w w'' ∧ SamePlace w w'' ∧ ∀ b, B b → w''.Known b) ∧
        s.isSettled w''.state = false)
      (Stops (Replays c s k.waits) fun w'' => (Sown c k E w w'' ∧ SamePlace w w'') ∧
        s.isSettled w''.state = true) := by
  have hp : SamePlace w w' := by rw [SamePlace, hl.cursor]
  refine Meets.mono h (fun _ w₁ h₁ => ?_) (Stops.mono fun w₁ h₁ => ?_)
  · obtain ⟨⟨hsown, hp₁, hk⟩, hs⟩ := h₁
    exact ⟨⟨hsown.after_same hl.toSameMarks, hp₁.trans hp, hk⟩, hs⟩
  · obtain ⟨⟨hsown, hp₁⟩, hs⟩ := h₁
    exact ⟨⟨hsown.after_same hl.toSameMarks, hp₁.trans hp⟩, hs⟩

/-- **An answer is sown.** -/
theorem sows_answer {m : Walk Unit} {reads : List Nat} {b : Nat} {v : Bool} (hw : w.Under c k)
    (hb : c.Bucket k.stall b)
    (hsafe : Safe c s (fun _ => False) (fun _ => False) (fun _ => False) w m
      (fun _ w' => w'.Known b ∧ Answered reads b v w w') (Answered reads b v w))
    (hawake : Meets s w m (fun _ w' => s.isSettled w'.state = false) fun _ _ => True) :
    Sows c s k (fun b' u => b' = b ∧ u = v) (· = b) w m := by
  have sown {w' : Walker} (h : Answered reads b v w w') (hfit : w'.Fit c) :
      Sown c k (fun b' u => b' = b ∧ u = v) w w' := by
    rcases h with rfl | ⟨w₁, hl, hm⟩
    · exact .refl hw
    · have hw₁ : w₁.Under c k := hw.of_same hl.toSameMarks (fit_of_cursor hw.fit hl.toSameMarks
        (by rw [hl.cursor]) (by rw [Cursor.Inside, hl.cursor]; exact hw.fit.inside))
      exact .of_mark hb hw₁ (fun _ _ => by rw [hl.state]) (fun _ _ => by rw [hl.slots]) hm hfit
  refine Meets.mono (Meets.and hsafe hawake) (fun _ w' h => ?_) fun e w' h => ?_
  · obtain ⟨⟨-, hfit, hk, ha⟩, hs⟩ := h
    refine ⟨⟨sown ha hfit, by rw [SamePlace, ha.cursor_eq], ?_⟩, hs⟩
    rintro _ rfl
    exact hk
  · cases e with
    | settled =>
      obtain ⟨-, hfit, hs, ha⟩ := h.1
      exact ⟨⟨sown ha hfit, by rw [SamePlace, ha.cursor_eq]⟩, hs⟩
    | failed e => exact h.1.1.elim

/-- A part that is done for a bucket if nothing is known of that leaves a walk awake. -/
theorem meets_ifUnknown_awake {b : Nat} {m : Walk Unit} (hfit : w.Fit c) (hb : b < c.tree.size)
    (hs : s.isSettled w.state = false)
    (hm : ∀ w', Meets s w' m (fun _ w'' => s.isSettled w''.state = false) fun _ _ => True) :
    Meets s w (do if ← isUnknown b then m) (fun _ w' => s.isSettled w'.state = false)
      fun _ _ => True := by
  have safe : Safe c s (fun _ => False) (fun _ => False) (fun _ => False) w (isUnknown b)
      (fun _ w' => w' = w ∧ _) (fun _ => False) := safe_isUnknown hfit hb
  refine safe.always.bind fun r w₁ h₁ => ?_
  obtain ⟨rfl, -⟩ := h₁
  split
  · exact hm w₁
  · exact meets_pure hs

/-- **A test** is answered by what it says of the slots. -/
theorem sows_test {t : Test} {v : Value} (ht : t.Belongs c k) (hw : w.Under c k)
    (hs : s.isSettled w.state = false) :
    Sows c s k (fun b u => b = t.bucket ∧ u = t.check.holds s.decimals (w.slots.value c.data) v)
      (· = t.bucket) w (test v t) := by
  refine sows_answer hw ht.bucket (safe_test hw.fit (hw.markable ht.bucket)
    fun i hi => (ht.reads i hi).1) (meets_ifUnknown_awake hw.fit ht.bucket.lt hs fun w' => ?_)
  refine meets_true.bind fun _ w₁ _ => ?_
  exact (meets_get (Q := fun _ _ => True) trivial).bind fun _ _ _ =>
    (meets_read (Q := fun _ _ => True) trivial).bind fun _ _ _ => meets_mark_awake

/-- **A loop that has no array** is false. -/
theorem sows_deny {l : Loop} (hl : l.Belongs c k) (hw : w.Under c k)
    (hs : s.isSettled w.state = false) :
    Sows c s k (fun b u => b = l.bucket ∧ u = false) (· = l.bucket) w
      (markIfUnknown l.bucket false) :=
  sows_answer hw hl.fits.bucket
    (safe_markIfUnknown hw.fit (hw.markable hl.fits.bucket))
    (meets_ifUnknown_awake hw.fit hl.fits.bucket.lt hs fun _ => meets_mark_awake)

end Walk

/-! ## 3. Loops over captured arrays -/

/-- **What a loop that waits can come to**, by what the slots hold: its verdict over the array that
    has been captured, wherever it is run from. -/
inductive Loop.Gives (c : Course) (s : Setting) (k : Outlook) (l : Loop) (slots : Slots) :
    Bool → Prop
  | noArray {i : Nat} (target : l.target = .slot i)
    (closed : ∀ span, slots[i]? = some (some span) → span.opensArray c.data = false) :
    l.Gives c s k slots false
  | array {i : Nat} {span : Span} {x y : Walker} {v : Walk.Verdict} (target : l.target = .slot i)
    (found : slots[i]? = some (some span)) (opens : span.opensArray c.data = true)
    (enters : Enters c l x) (seen : ∀ i, k.sight i → x.slots[i]? = slots[i]?)
    (start : x.cursor.position = span.offset + 1) (tally : l.tally.outcome s x = (.ok v, y)) :
    l.Gives c s k slots v.answer

/-- A loop that waits for an array in a slot that can be seen. -/
structure Loop.Waits (c : Course) (k : Outlook) (l : Loop) : Prop where
  target : ∃ i, l.target = .slot i ∧ i < c.count ∧ k.sight i
  waits : k.waits l

/-- A loop that fails where it halts when it is settled fails in the same way where it asks. -/
theorem Loop.Belongs.runner_fails {l : Loop} {e : MatchError} (hl : l.Belongs c k)
    (hw : w.Under c k) (hs : s.isSettled w.state = false)
    (h : l.halting.run.outcome s w = (.error (.failed e), w')) :
    l.runner.run.outcome s w = (.error e, w') := by
  have hv : c.tree.Valid := hw.fit.tree ▸ hw.fit.good.valid
  have hpolls : l.Polls ⟨s, c.tree, fun _ => True, fun _ _ _ _ => trivial⟩ k.stall :=
    Loop.polls (hl.fits.below hv) (Node.polls hv rfl l.body _ hl.body)
  have hboth := hpolls w ⟨⟨hw.fit.tree, hw.stall, trivial⟩, hs⟩
  unfold Both at hboth
  simp only [h] at hboth
  exact hboth.1

/-- Only the slots that can be seen count. -/
theorem Loop.Gives.congr {l : Loop} {slots slots' : Slots} {u : Bool} (h : l.Gives c s k slots u)
    (hw : l.Waits c k) (hs : ∀ i, k.sight i → slots'[i]? = slots[i]?) : l.Gives c s k slots' u := by
  obtain ⟨j, hj, -, hsight⟩ := hw.target
  cases h with
  | @noArray i target closed =>
    obtain rfl : i = j := by
      rw [hj] at target
      cases target
      rfl
    refine .noArray target fun span hspan => closed span ?_
    rw [← hs i hsight, hspan]
  | @array i span x y v target found opens enters seen start tally =>
    obtain rfl : i = j := by
      rw [hj] at target
      cases target
      rfl
    exact .array target ((hs i hsight).trans found) opens enters
      (fun m hm => (seen m hm).trans (hs m hm).symm) start tally

namespace Walk

/-- Looking at a slot is told of. -/
theorem meets_fetch_trail {reader i : Nat} : Meets s w (fetch reader i)
    (fun found w' => w'.trail = .fetched reader i found :: w.trail) fun _ _ => True := by
  have looked : Meets s w (slotAt i) (fun _ w' => w' = w) fun _ _ => True := by
    refine (meets_get (Q := fun u w' => w' = w) rfl).bind fun u w' hw => ?_
    split
    · exact meets_pure hw
    · exact meets_fail trivial
  refine looked.bind fun found w' hw => ?_
  subst hw
  refine (meets_note (Q := fun _ w₁ => w₁.trail = .fetched reader i found :: w'.trail) rfl).bind
    fun _ w₁ h₁ => ?_
  cases found with
  | none => exact meets_pure h₁
  | some span =>
    refine (meets_get (Q := fun u w₂ => w₂ = w₁) rfl).bind fun u w₂ h₂ => ?_
    split
    · exact meets_pure (by rw [h₂, h₁])
    · exact meets_fail trivial

/-- A loop that has come to a verdict is marked with that. -/
theorem sows_run {l : Loop} (hl : l.Belongs c k) (hv : s.bound = c.data.length + 1)
    (hw : w.Under c k) (hu : w.state.get l.bucket = .unknown) :
    Meets s w l.halting.run
      (fun _ w' => (Sown c k (fun b u => b = l.bucket ∧ ∃ v y, l.tally.outcome s w = (.ok v, y) ∧
        u = v.answer) w w' ∧ w'.Known l.bucket) ∧ s.isSettled w'.state = false)
      (Stops (fun _ => True) fun w' => Sown c k (fun b u => b = l.bucket ∧
        ∃ v y, l.tally.outcome s w = (.ok v, y) ∧ u = v.answer) w w' ∧
          s.isSettled w'.state = true) := by
  have hsecure : Secure c s (some l.bucket) l.body := secure hv l.body _ hl.body
  rw [Loop.run_eq]
  refine Meets.bind (Meets.mono (meets_tally (hl.enters hw hu) hsecure hv).told (fun _ _ h => h)
    fun e w₁ h => ?_) fun v w₁ h₁ => ?_
  · cases e with
    | settled => exact h.elim
    | failed e => trivial
  obtain ⟨hleft, htally⟩ := h₁
  obtain ⟨hw₁, hsame, hslots⟩ := hl.left hw hleft
  have sown {w₂ : Walker} (hm : Marked l.bucket v.answer w₁ w₂) (hfit : w₂.Fit c) :
      Sown c k (fun b u => b = l.bucket ∧ ∃ v y, l.tally.outcome s w = (.ok v, y) ∧ u = v.answer)
        w w₂ := by
    refine (Sown.of_mark hl.fits.bucket hw₁ hsame hslots hm hfit).mono ?_
    rintro b u ⟨rfl, rfl⟩
    exact ⟨rfl, v, w₁, htally, rfl⟩
  refine Meets.bind ((meets_mark hw₁.fit (hw₁.markable hl.fits.bucket) hleft.unknown).mono
    (fun _ _ h => h) (Stops.mono fun w₂ h => ?_)) fun _ w₂ h₂ => ?_
  · obtain ⟨⟨hm, hfit⟩, hs⟩ := h
    exact ⟨sown hm hfit, hs⟩
  · obtain ⟨⟨hm, hfit⟩, hs⟩ := h₂
    have safe : Safe c s MatchError.OfDocument (fun _ => False) (fun _ => False) w₂
        (passArray v.decider) _ fun _ => False := safe_passArray hfit hleft.decided
    refine Meets.mono safe (fun _ w₃ h₃ => ?_) fun e w₃ h₃ => ?_
    · obtain ⟨-, hfit₃, hreads, -⟩ := h₃
      refine ⟨⟨(sown hm hfit).of_same hreads.toSameMarks hfit₃, ?_⟩, by rw [hreads.state]; exact hs⟩
      rw [Walker.Known, hreads.state]
      exact hm.known
    · cases e with
      | settled => exact h₃.2.2.2.elim
      | failed e => trivial

/-- A loop over an array that its slot holds gives its verdict over it. -/
theorem sows_array {l : Loop} {i : Nat} {span : Span} {earlier : List Event}
    (hl : l.Belongs c k) (hwaits : k.waits l) (hv : s.bound = c.data.length + 1)
    (hw : w.Under c k) (hs : s.isSettled w.state = false)
    (hu : w.state.get l.bucket = .unknown) (ht : l.target = .slot i)
    (hf : w.slots[i]? = some (some span)) (hopens : span.opensArray c.data = true)
    (htrail : w.trail = .fetched l.bucket i (some span) :: earlier) :
    Sows c s k (fun b u => b = l.bucket ∧ l.Gives c s k w.slots u) (· = l.bucket) w
      (do
        seek (span.offset + 1)
        restoring l.halting.run (seek w.cursor.position)) := by
  have hin := hw.fit.spans i span hf
  rw [Span.isInside_iff, Span.stop] at hin
  have hlen : w.cursor.position ≤ c.data.length := hw.fit.data ▸ hw.fit.inside
  refine Meets.bind (meets_seek (Q := fun _ w₁ => w₁ =
    { w with cursor := w.cursor.seek (span.offset + 1) }) rfl) fun _ w₁ h₁ => ?_
  obtain ⟨hsame₁, hfit₁, hpos₁⟩ := sought (span.offset + 1) hw.fit (by omega)
  rw [← h₁] at hsame₁ hfit₁
  replace hpos₁ : w₁.cursor.position = span.offset + 1 := by rw [h₁, hpos₁]
  have hw₁ : w₁.Under c k := hw.of_same hsame₁ hfit₁
  have hu₁ : w₁.state.get l.bucket = .unknown := by rw [hsame₁.state]; exact hu
  -- what is sown from there is sown from here, and the walk goes back
  have back {w₂ : Walker} (h : Sown c k (fun b u => b = l.bucket ∧
      ∃ v y, l.tally.outcome s w₁ = (.ok v, y) ∧ u = v.answer) w₁ w₂) :
      Sown c k (fun b u => b = l.bucket ∧ l.Gives c s k w.slots u) w
        { w₂ with cursor := w₂.cursor.seek w.cursor.position } ∧
      (w₂.cursor.seek w.cursor.position).position = w.cursor.position := by
    obtain ⟨hsame₂, hfit₂, hpos₂⟩ := sought _ h.under.fit hlen
    refine ⟨((h.of_same hsame₂ hfit₂).after_same hsame₁).mono ?_, hpos₂⟩
    rintro _ _ ⟨rfl, v, y, htally, rfl⟩
    exact ⟨rfl, .array ht hf hopens (hl.enters hw₁ hu₁) (fun m _ => by rw [hsame₁.slots]) hpos₁
      htally⟩
  refine meets_restoring (Meets.mono (sows_run hl hv hw₁ hu₁).told_failure
    (fun _ w₂ h₂ => meets_seek ?_) fun e w₂ h₂ => meets_seek ?_)
  · obtain ⟨⟨hsown, hk⟩, hs⟩ := h₂
    refine ⟨⟨(back hsown).1, (back hsown).2, ?_⟩, hs⟩
    rintro _ rfl
    exact hk
  · cases e with
    | settled => exact ⟨back h₂.1, h₂.2⟩
    | failed e =>
      obtain ⟨e, he⟩ := h₂
      refine .mk hwaits ht hopens (by rw [h₁, htrail]) hpos₁ (hl.runner_fails hw₁ ?_ he)
      rw [hsame₁.state]
      exact hs

/-- A loop over what its slot holds gives what it can come to. -/
theorem sows_runOver {l : Loop} {i : Nat} {found : Option Span} {earlier : List Event}
    (hl : l.Belongs c k) (hwaits : k.waits l) (hv : s.bound = c.data.length + 1)
    (hw : w.Under c k) (hs : s.isSettled w.state = false)
    (hu : w.state.get l.bucket = .unknown) (ht : l.target = .slot i)
    (hf : w.slots[i]? = some found) (htrail : w.trail = .fetched l.bucket i found :: earlier) :
    Sows c s k (fun b u => b = l.bucket ∧ l.Gives c s k w.slots u) (· = l.bucket) w
      (runOver found l.halting) := by
  refine Meets.bind (meets_get (Q := fun u w' => u = w ∧ w' = w) ⟨rfl, rfl⟩) fun u w₁ hu₁ => ?_
  obtain ⟨rfl, rfl⟩ := hu₁
  rw [Loop.halting_bucket]
  -- where there is no array the loop is false
  have noArray (h : ∀ span, found = some span → span.opensArray c.data = false) :
      Sows c s k (fun b u => b = l.bucket ∧ l.Gives c s k w₁.slots u) (· = l.bucket) w₁
        (mark l.bucket false) := by
    have gives : l.Gives c s k w₁.slots false := by
      refine .noArray ht fun span hspan => h span ?_
      rw [hf] at hspan
      exact Option.some.inj hspan
    refine (sows_mark hw hl.fits.bucket hu).mono ?_ fun _ h => h
    rintro _ _ ⟨rfl, rfl⟩
    exact ⟨rfl, gives⟩
  cases found with
  | none => exact noArray nofun
  | some span =>
    dsimp only
    split
    · next hopens =>
      exact sows_array hl hwaits hv hw hs hu ht hf (hw.fit.data ▸ hopens) htrail
    · next hopens =>
      refine noArray fun span' he => ?_
      cases he
      rw [hw.fit.data] at hopens
      exact Bool.eq_false_iff.mpr hopens

/-- **A loop that waits** gives what it can come to. -/
theorem sows_replay {l : Loop} (hl : l.Belongs c k) (ht : l.Waits c k)
    (hv : s.bound = c.data.length + 1) (hw : w.Under c k) (hs : s.isSettled w.state = false) :
    Sows c s k (fun b u => b = l.bucket ∧ l.Gives c s k w.slots u) (· = l.bucket) w
      (runCaptured l.target l.halting) := by
  obtain ⟨⟨i, htarget, hi, -⟩, hwaits⟩ := ht
  unfold runCaptured
  rw [Loop.halting_bucket]
  have unknown : Safe c s (fun _ => False) (fun _ => False) (fun _ => False) w (isUnknown l.bucket)
      (fun r w' => w' = w ∧ (r = true ↔ w.state.get l.bucket = .unknown)) fun _ => False :=
    safe_isUnknown hw.fit hl.fits.bucket.lt
  refine unknown.always.bind fun r w₁ h₁ => ?_
  obtain ⟨rfl, hr⟩ := h₁
  split
  · next hun =>
    simp only [htarget]
    have fetch : Safe c s (fun _ => False) (fun _ => False) (fun _ => False) w₁ (fetch l.bucket i)
        _ fun _ => False := safe_fetch hw.fit hi
    refine Meets.bind (Meets.mono (Meets.and fetch meets_fetch_trail) (fun _ _ h => h)
      fun e w₂ h => ?_) fun found w₂ h₂ => ?_
    · cases e with
      | settled => exact h.1.2.2.2.elim
      | failed e => exact h.1.1.elim
    · obtain ⟨⟨-, hfit₂, hlook, hf, -⟩, htrail⟩ := h₂
      have hw₂ := hw.of_same hlook.toSameMarks hfit₂
      have hover := sows_runOver hl hwaits hv hw₂ (by rw [hlook.state]; exact hs)
        (by rw [hlook.state]; exact hr.mp hun) htarget (by rw [hlook.slots]; exact hf) htrail
      rw [hlook.slots] at hover
      exact hover.after_looks hlook
  · next hk =>
    refine sows_pure hw hs ?_
    rintro _ rfl hun
    exact hk (hr.mpr hun)

end Walk

end Sift
