import Sift.Proofs.Walk.Outcome
import Sift.Proofs.Plan.Fits
import Sift.Proofs.Cursor

/-!
# What the steps of a walk keep

`Walker.Fit` is the invariant of a walk: its parts go with one another and with the document.
`Moves loops slots w w'` says how much may be different after a part of a walk: what is known stays
known, except below the buckets `loops`; only the slots `slots` change; and nothing happens outside
of what the stall bounds.

`Walk.Safe` says of a part of a walk that it keeps the one and moves no more than the other, and
that it does not fail by a defect of the plan, whatever the document is. This module has the rules
for it and shows it of everything that walks are made of.
-/

namespace Sift

open Resolution

theorem Span.isInside_iff {data : Bytes} {span : Span} :
    span.isInside data = true ↔ 0 < span.length ∧ span.stop ≤ data.length := by
  rw [isInside, Bool.and_eq_true, decide_eq_true_iff, decide_eq_true_iff]

theorem Span.isInside_between {data : Bytes} {start stop : Nat} :
    (between start stop).isInside data = true ↔ start < stop ∧ stop ≤ data.length := by
  rw [isInside_iff]
  show 0 < stop - start ∧ start + (stop - start) ≤ data.length ↔ _
  omega

/-! ## 1. Walkers -/

/-- **The parts of a walker go with one another.** -/
structure Walker.Fit (c : Course) (w : Walker) : Prop where
  data : w.cursor.data = c.data
  inside : w.cursor.Inside
  tree : w.state.tree = c.tree
  good : w.state.Good c.marked
  slots : w.slots.size = c.count
  spans : ∀ (s : Nat) (span : Span), w.slots[s]? = some (some span) → span.isInside c.data = true

/-- Something is known of a bucket. -/
def Walker.Known (w : Walker) (b : Nat) : Prop := w.state.get b ≠ .unknown

/-- What may happen below the stall: what is done to buckets is done to those that it bounds, and an
    element is judged when its body has a value. -/
def Walker.Allows (w : Walker) : Event → Prop
  | .marked b _ _ | .began b _ _ _ => w.state.Within b
  | .judged b m => w.state.Within b ∧ ∃ v, m = .value v
  | _ => True

/-- Whether an event is not that a slot is looked at. -/
def Event.Blind : Event → Prop
  | .fetched _ _ _ => False
  | _ => True

/-- The trail has only grown, by what may happen. -/
def Walker.Extends (w w' : Walker) : Prop :=
  ∃ events, w'.trail = events ++ w.trail ∧ ∀ e ∈ events, w.Allows e

/-- **How much is different after a part of a walk.** -/
structure Moves (loops slots : Nat → Prop) (w w' : Walker) : Prop where
  tree : w'.state.tree = w.state.tree
  stall : w'.state.stall = w.state.stall
  outside : ∀ j, ¬ w.state.Within j → w'.state.get j = w.state.get j
  known : ∀ j, w.Known j → (∀ i, loops i → w.state.tree.isBelow i j = false) →
    w'.state.get j = w.state.get j
  slots : ∀ s, ¬ slots s → w'.slots[s]? = w.slots[s]?
  trail : w.Extends w'

variable {loops slots : Nat → Prop} {w w' w'' : Walker}

theorem Moves.within (h : Moves loops slots w w') {j : Nat} :
    w'.state.Within j ↔ w.state.Within j := by
  simp only [State.Within, h.stall, h.tree]

theorem Moves.allows (h : Moves loops slots w w') {e : Event} : w'.Allows e ↔ w.Allows e := by
  cases e <;> simp only [Walker.Allows, h.within]

theorem Walker.Extends.refl (w : Walker) : w.Extends w := ⟨[], rfl, by simp⟩

/-- What happens after a part of a walk happens after its start. -/
theorem Moves.extends_of (h : Moves loops slots w w') (h' : w'.Extends w'') : w.Extends w'' := by
  obtain ⟨es, ht, he⟩ := h.trail
  obtain ⟨es', ht', he'⟩ := h'
  refine ⟨es' ++ es, by rw [ht', ht, List.append_assoc], fun e hm => ?_⟩
  rcases List.mem_append.mp hm with hm | hm
  · exact h.allows.mp (he' e hm)
  · exact he e hm

theorem Moves.refl (w : Walker) : Moves loops slots w w :=
  ⟨rfl, rfl, fun _ _ => rfl, fun _ _ _ => rfl, fun _ _ => rfl, [], rfl, by simp⟩

theorem Moves.trans (h : Moves loops slots w w') (h' : Moves loops slots w' w'') :
    Moves loops slots w w'' where
  tree := h'.tree.trans h.tree
  stall := h'.stall.trans h.stall
  outside j hj := (h'.outside j (mt h.within.mp hj)).trans (h.outside j hj)
  known j hk hj := by
    have he := h.known j hk hj
    refine (h'.known j ?_ ?_).trans he
    · rw [Walker.Known, he]
      exact hk
    · rw [h.tree]
      exact hj
  slots s hs := (h'.slots s hs).trans (h.slots s hs)
  trail := h.extends_of h'.trail

theorem Moves.mono {loops' slots' : Nat → Prop} (h : Moves loops slots w w')
    (hl : ∀ i, loops i → loops' i) (hs : ∀ s, slots s → slots' s) : Moves loops' slots' w w' :=
  ⟨h.tree, h.stall, h.outside, fun j hk hj => h.known j hk fun i hi => hj i (hl i hi),
    fun s hn => h.slots s (mt (hs s) hn), h.trail⟩

/-- What is known of a bucket that lies below none of the loops stays known. -/
theorem Moves.known_of_known (h : Moves loops slots w w') {b : Nat} (hk : w.Known b)
    (hb : ∀ i, loops i → w.state.tree.isBelow i b = false) : w'.Known b := by
  rw [Walker.Known, h.known b hk hb]
  exact hk

/-- Only the cursor and the trail are different. -/
theorem Moves.of_cursor (events : List Event) (hs : w'.state = w.state) (hl : w'.slots = w.slots)
    (ht : w'.trail = events ++ w.trail) (he : ∀ e ∈ events, w.Allows e) :
    Moves loops slots w w' :=
  ⟨by rw [hs], by rw [hs], fun _ _ => by rw [hs], fun _ _ _ => by rw [hs],
    fun _ _ => by rw [hl], events, ht, he⟩

variable {c : Course}

/-- What a bucket needs to be marked. -/
def Walker.Markable (c : Course) (w : Walker) (b : Nat) : Prop := c.Bucket w.state.stall b

theorem Moves.markable (h : Moves loops slots w w') {b : Nat} (hb : w.Markable c b) :
    w'.Markable c b := by
  unfold Walker.Markable
  rw [h.stall]
  exact hb

/-- A bucket that lies below none of the loops that may run. -/
def Course.Clear (c : Course) (loops : Nat → Prop) (b : Nat) : Prop :=
  ∀ i, loops i → c.tree.isBelow i b = false

/-! ## 2. Safe parts of a walk -/

namespace Walk

variable {α β : Type} {s : Setting} {F : MatchError → Prop} {m : Walk α}
  {Q : α → Walker → Prop} {S : Walker → Prop}

/-- What holds where a safe part of a walk halts: `S` if it is settled, `F` if it fails. -/
def Halts (c : Course) (s : Setting) (F : MatchError → Prop) (loops slots : Nat → Prop)
    (w : Walker) (S : Walker → Prop) : Halt → Walker → Prop
  | .settled, w' => Moves loops slots w w' ∧ w'.Fit c ∧ s.isSettled w'.state = true ∧ S w'
  | .failed e, w' => F e ∧ w.Extends w'

/-- A walk that is never settled here, and fails with `F`. -/
def Fails (F : MatchError → Prop) (w : Walker) : Halt → Walker → Prop
  | .settled, _ => False
  | .failed e, w' => F e ∧ w.Extends w'

/-- **A safe part of a walk**: it ends with `Q`, or is settled with `S`, or fails with `F`. -/
def Safe (c : Course) (s : Setting) (F : MatchError → Prop) (loops slots : Nat → Prop)
    (w : Walker) (m : Walk α) (Q : α → Walker → Prop) (S : Walker → Prop) : Prop :=
  Meets s w m (fun a w' => Moves loops slots w w' ∧ w'.Fit c ∧ Q a w')
    (Halts c s F loops slots w S)

theorem Halts.of_moves (h : Moves loops slots w w') :
    ∀ e w'', Halts c s F loops slots w' S e w'' → Halts c s F loops slots w S e w''
  | .settled, _, h' => ⟨h.trans h'.1, h'.2⟩
  | .failed _, _, h' => ⟨h'.1, h.extends_of h'.2⟩

theorem Safe.mono {Q' : α → Walker → Prop} {S' : Walker → Prop}
    (h : Safe c s F loops slots w m Q S)
    (hq : ∀ a w', Moves loops slots w w' → w'.Fit c → Q a w' → Q' a w')
    (hs : ∀ w', Moves loops slots w w' → S w' → S' w') : Safe c s F loops slots w m Q' S' :=
  Meets.mono h (fun _ _ h => ⟨h.1, h.2.1, hq _ _ h.1 h.2.1 h.2.2⟩) fun e _ h => by
    cases e with
    | settled => exact ⟨h.1, h.2.1, h.2.2.1, hs _ h.1 h.2.2.2⟩
    | failed e => exact h

/-- The same part, with more that may be different. -/
theorem Safe.widen {loops' slots' : Nat → Prop} (h : Safe c s F loops slots w m Q S)
    (hl : ∀ i, loops i → loops' i) (hs : ∀ s, slots s → slots' s) :
    Safe c s F loops' slots' w m Q S :=
  Meets.mono h (fun _ _ h => ⟨h.1.mono hl hs, h.2⟩) fun e _ h => by
    cases e with
    | settled => exact ⟨h.1.mono hl hs, h.2⟩
    | failed e => exact h

/-- What is safe where a walk has come to is safe from where it came. -/
theorem Safe.after (hm : Moves loops slots w w') (h : Safe c s F loops slots w' m Q S) :
    Meets s w' m (fun a w'' => Moves loops slots w w'' ∧ w''.Fit c ∧ Q a w'')
      (Halts c s F loops slots w S) :=
  Meets.mono h (fun _ _ h => ⟨hm.trans h.1, h.2⟩) (Halts.of_moves hm)

/-- **One safe part after the other.** -/
theorem Safe.bind {f : α → Walk β} {R : β → Walker → Prop} (h : Safe c s F loops slots w m Q S)
    (hf : ∀ a w', Moves loops slots w w' → w'.Fit c → Q a w' →
      Safe c s F loops slots w' (f a) R S) : Safe c s F loops slots w (m >>= f) R S := by
  exact Meets.bind h fun a w' ⟨hm, hfit, hq⟩ => (hf a w' hm hfit hq).after hm

theorem safe_pure {a : α} (hfit : w.Fit c) (h : Q a w) : Safe c s F loops slots w (pure a) Q S :=
  meets_pure ⟨.refl w, hfit, h⟩

/-- A part that looks at the walker first. -/
theorem safe_get_bind {f : Walker → Walk α} (h : Safe c s F loops slots w (f w) Q S) :
    Safe c s F loops slots w (get >>= f) Q S := h

/-- A part that looks at the setting first. -/
theorem safe_read_bind {f : Setting → Walk α} (h : Safe c s F loops slots w (f s) Q S) :
    Safe c s F loops slots w (read >>= f) Q S := h

theorem safe_fail {e : MatchError} (h : F e) : Safe c s F loops slots w (fail e : Walk α) Q S :=
  meets_fail ⟨h, .refl w⟩

/-- **Thing after thing**, each of which is done once (`D`) and stays done, while `K` is kept. -/
theorem safe_forM {f : α → Walk PUnit} {l : List α} {D : α → Walker → Prop}
    {K : Walker → Prop} (hfit : w.Fit c) (hkeep : K w)
    (hf : ∀ a ∈ l, ∀ w', Moves loops slots w w' → w'.Fit c → K w' →
      Safe c s F loops slots w' (f a) (fun _ w'' => D a w'' ∧ K w'') S)
    (hdone : ∀ a ∈ l, ∀ w₁ w₂, Moves loops slots w w₁ → Moves loops slots w₁ w₂ →
      D a w₁ → D a w₂) :
    Safe c s F loops slots w (l.forM f) (fun _ w' => (∀ a ∈ l, D a w') ∧ K w') S := by
  induction l generalizing w with
  | nil => exact safe_pure hfit ⟨by simp, hkeep⟩
  | cons a rest ih =>
    rw [List.forM_eq_forM, List.forM_cons]
    refine (hf a List.mem_cons_self w (.refl w) hfit hkeep).bind fun _ w' hm hfit' hq => ?_
    refine (ih (w := w') hfit' hq.2
      (fun b hb w'' h => hf b (List.mem_cons_of_mem a hb) w'' (hm.trans h))
      (fun b hb w₁ w₂ h => hdone b (List.mem_cons_of_mem a hb) w₁ w₂ (hm.trans h))).mono
      (fun _ w'' hm' _ h => ⟨fun b hb => ?_, h.2⟩) fun _ _ h => h
    rcases List.mem_cons.mp hb with rfl | hb
    · exact hdone b List.mem_cons_self w' w'' hm hm' hq.1
    · exact h.1 b hb

/-! ## 3. Reading -/

/-- Only the cursor and the trail are different. -/
structure SameMarks (w w' : Walker) : Prop where
  state : w'.state = w.state
  slots : w'.slots = w.slots

theorem SameMarks.trans (h : SameMarks w w') (h' : SameMarks w' w'') : SameMarks w w'' :=
  ⟨h'.state.trans h.state, h'.slots.trans h.slots⟩

/-- Only the cursor is different, and the trail by what has been read. -/
structure OnlyReads (w w' : Walker) : Prop extends SameMarks w w' where
  blind : ∃ events, w'.trail = events ++ w.trail ∧ ∀ e ∈ events, e.Blind

theorem OnlyReads.refl (w : Walker) : OnlyReads w w := ⟨⟨rfl, rfl⟩, [], rfl, by simp⟩

theorem OnlyReads.trans (h : OnlyReads w w') (h' : OnlyReads w' w'') : OnlyReads w w'' := by
  obtain ⟨es, ht, he⟩ := h.blind
  obtain ⟨es', ht', he'⟩ := h'.blind
  refine ⟨h.toSameMarks.trans h'.toSameMarks, es' ++ es, by rw [ht', ht, List.append_assoc],
    fun e hm => ?_⟩
  rcases List.mem_append.mp hm with hm | hm
  · exact he' e hm
  · exact he e hm

theorem fit_of_cursor (h : w.Fit c) (hs : SameMarks w w') (hd : w'.cursor.data = w.cursor.data)
    (hi : w'.cursor.Inside) : w'.Fit c where
  data := hd.trans h.data
  inside := hi
  tree := by rw [hs.state, h.tree]
  good := by rw [hs.state]; exact h.good
  slots := by rw [hs.slots, h.slots]
  spans i span hi := h.spans i span (by rwa [hs.slots] at hi)

theorem safe_step (hfit : w.Fit c) (hF : ∀ e cursor, w.cursor.step = (.error e, cursor) →
    F (.lex e)) : Safe c s F loops slots w step (fun token w' =>
      OnlyReads w w' ∧ w.cursor.step = (.ok token, w'.cursor)) S := by
  refine meets_step (fun token cursor h => ?_) fun e cursor h =>
    ⟨hF e cursor h, [.stepped], rfl, by simp [Walker.Allows]⟩
  obtain ⟨hd, hi, _⟩ := Cursor.step_bounds h hfit.inside
  have hs : SameMarks w { w with cursor, trail := .stepped :: w.trail } := ⟨rfl, rfl⟩
  exact ⟨.of_cursor [.stepped] rfl rfl rfl (by simp [Walker.Allows]),
    fit_of_cursor hfit hs hd hi, ⟨hs, [.stepped], rfl, by simp [Event.Blind]⟩, h⟩

theorem safe_skipContainer (hfit : w.Fit c) (hF : ∀ e cursor,
    w.cursor.skipContainer = (.error e, cursor) → F (.lex e)) :
    Safe c s F loops slots w skipContainer (fun _ w' =>
      OnlyReads w w' ∧ ∃ stop, w.cursor.skipContainer = (.ok stop, w'.cursor)) S := by
  refine meets_skipContainer (fun stop cursor h => ?_) fun e cursor h =>
    ⟨hF e cursor h, [.skipped], rfl, by simp [Walker.Allows]⟩
  obtain ⟨hd, hi, _⟩ := Cursor.skipContainer_bounds h hfit.inside
  have hs : SameMarks w { w with cursor, trail := .skipped :: w.trail } := ⟨rfl, rfl⟩
  exact ⟨.of_cursor [.skipped] rfl rfl rfl (by simp [Walker.Allows]),
    fit_of_cursor hfit hs hd hi, ⟨hs, [.skipped], rfl, by simp [Event.Blind]⟩, stop, h⟩

/-- A walk may go anywhere in the document. -/
theorem sought (position : Nat) (hfit : w.Fit c) (h : position ≤ c.data.length) :
    SameMarks w { w with cursor := w.cursor.seek position } ∧
      Walker.Fit c { w with cursor := w.cursor.seek position } ∧
      (w.cursor.seek position).position = position := by
  have hs : SameMarks w { w with cursor := w.cursor.seek position } := ⟨rfl, rfl⟩
  exact ⟨hs, fit_of_cursor hfit hs (Cursor.seek_data _ _) (Cursor.seek_inside _ _),
    Cursor.seek_position (by rw [hfit.data]; exact h)⟩

theorem safe_seek {position : Nat} (hfit : w.Fit c) (h : position ≤ c.data.length) :
    Safe c s F loops slots w (seek position) (fun _ w' =>
      OnlyReads w w' ∧ w'.cursor.position = position) S := by
  obtain ⟨hs, hfit', hpos⟩ := sought position hfit h
  exact meets_seek ⟨.of_cursor [] rfl rfl rfl (by simp), hfit', ⟨hs, [], rfl, by simp⟩, hpos⟩

/-! ## 4. Marking -/

theorem safe_checkBucket {b : Nat} (hfit : w.Fit c) (hb : b < c.tree.size) :
    Safe c s F loops slots w (checkBucket b) (fun _ w' => w' = w) S := by
  refine safe_get_bind ?_
  rw [if_neg (by rw [hfit.good.size, hfit.tree]; omega)]
  exact safe_pure hfit rfl

theorem safe_isUnknown {b : Nat} (hfit : w.Fit c) (hb : b < c.tree.size) :
    Safe c s F loops slots w (isUnknown b)
      (fun r w' => w' = w ∧ (r = true ↔ w.state.get b = .unknown)) S := by
  refine (safe_checkBucket hfit hb).bind fun _ w' _ _ h => ?_
  subst h
  exact safe_get_bind (safe_pure hfit ⟨rfl, State.isUnknown_iff⟩)

/-- What a mark of a bucket leaves. -/
structure Marked (b : Nat) (v : Bool) (w w' : Walker) : Prop where
  unknown : w.state.get b = .unknown
  state : w.state.mark b v = .ok w'.state
  get : w'.state.get b = .value v
  slots : w'.slots = w.slots
  cursor : w'.cursor = w.cursor
  trail : ∃ decided, w'.trail = .marked b v decided :: w.trail

/-- **Marking an unknown bucket.** -/
theorem safe_mark {b : Nat} {v : Bool} (hfit : w.Fit c) (hb : w.Markable c b)
    (hu : w.state.get b = .unknown) :
    Safe c s F loops slots w (mark b v) (fun _ => Marked b v w) (Marked b v w) := by
  refine (safe_checkBucket hfit hb.lt).bind fun _ w' _ _ h => ?_
  subst h
  have hw : w'.state.Within b := fun i hi => by
    rw [hfit.tree]
    exact hb.below i hi
  obtain ⟨state, hmark, hgood, hch, hget⟩ := State.mark_spec hfit.good
    (by rw [hfit.tree]; exact hb.lt) hw hu (fun _ => hb.marked) v
  refine safe_get_bind ?_
  simp only [hmark]
  have moved (e : Event) (he : w'.Allows e) :
      Moves loops slots w' { w' with state, trail := e :: w'.trail } :=
    ⟨hch.tree, hch.stall, hch.outside, fun j hj _ => hch.known j hj, fun _ _ => rfl, [e], rfl,
      fun e' hm => List.mem_singleton.mp hm ▸ he⟩
  have fits (e : Event) : Walker.Fit c { w' with state, trail := e :: w'.trail } :=
    ⟨hfit.data, hfit.inside, hch.tree.trans hfit.tree, hgood, hfit.slots, hfit.spans⟩
  show Meets s w' (ReaderT.read >>= _) _ _
  refine Meets.bind (Q := fun v w => v = s ∧ w = w') ⟨rfl, rfl⟩ fun v w h => ?_
  obtain ⟨rfl, rfl⟩ := h
  refine Meets.bind (meets_modify (Q := fun _ u => u = { w with state }) rfl) fun _ u h => ?_
  subst h
  refine Meets.bind (meets_note (Q := fun _ u => u = { w with
    state, trail := Event.marked b _ _ :: w.trail }) rfl) fun _ u h => ?_
  subst h
  split
  · next hset =>
    exact meets_throw ⟨moved _ hw, fits _, hset, hu, hmark, hget, rfl, rfl, _, rfl⟩
  · exact meets_pure ⟨moved _ hw, fits _, hu, hmark, hget, rfl, rfl, _, rfl⟩

theorem Marked.known {b : Nat} {v : Bool} (h : Marked b v w w') : w'.Known b := by
  rw [Walker.Known, h.get]
  exact Mark.noConfusion

/-- Slots have been looked at, and that is all. -/
structure Looked (reader : Nat) (reads : List Nat) (w w' : Walker) : Prop extends SameMarks w w' where
  cursor : w'.cursor = w.cursor
  trail : ∃ events, w'.trail = events ++ w.trail ∧
    ∀ e ∈ events, ∃ i ∈ reads, ∃ found, w.slots[i]? = some found ∧ e = .fetched reader i found

theorem Looked.refl (reader : Nat) (reads : List Nat) (w : Walker) : Looked reader reads w w :=
  ⟨⟨rfl, rfl⟩, rfl, [], rfl, by simp⟩

theorem Looked.trans {reader : Nat} {reads : List Nat} (h : Looked reader reads w w')
    (h' : Looked reader reads w' w'') : Looked reader reads w w'' := by
  obtain ⟨es, ht, he⟩ := h.trail
  obtain ⟨es', ht', he'⟩ := h'.trail
  refine ⟨h.toSameMarks.trans h'.toSameMarks, h'.cursor.trans h.cursor, es' ++ es,
    by rw [ht', ht, List.append_assoc], fun e hm => ?_⟩
  rcases List.mem_append.mp hm with hm | hm
  · rw [← h.slots]
    exact he' e hm
  · exact he e hm

/-- **What an answer leaves**: if nothing was known of the bucket, slots have been looked at and
    then it has been marked. -/
def Answered (reads : List Nat) (b : Nat) (v : Bool) (w w' : Walker) : Prop :=
  w' = w ∨ ∃ w₁, Looked b reads w w₁ ∧ Marked b v w₁ w'

section Answered

variable {reads : List Nat} {b : Nat} {v : Bool}

theorem Marked.answered (h : Marked b v w w') : Answered reads b v w w' :=
  .inr ⟨w, .refl b reads w, h⟩

theorem Answered.cursor_eq (h : Answered reads b v w w') : w'.cursor = w.cursor := by
  rcases h with rfl | ⟨w₁, hl, hm⟩
  · rfl
  · exact hm.cursor.trans hl.cursor

theorem Answered.slots_eq (h : Answered reads b v w w') : w'.slots = w.slots := by
  rcases h with rfl | ⟨w₁, hl, hm⟩
  · rfl
  · exact hm.slots.trans hl.slots

end Answered

theorem safe_markIfUnknown {b : Nat} {v : Bool} (hfit : w.Fit c) (hb : w.Markable c b) :
    Safe c s F loops slots w (markIfUnknown b v)
      (fun _ w' => w'.Known b ∧ Answered [] b v w w') (Answered [] b v w) := by
  refine (safe_isUnknown hfit hb.lt).bind fun r w' _ _ h => ?_
  obtain ⟨rfl, hr⟩ := h
  split
  · next ht =>
    exact (safe_mark hfit hb (hr.mp ht)).mono (fun _ _ _ _ h => ⟨h.known, h.answered⟩)
      fun _ _ h => h.answered
  · next hf => exact safe_pure hfit ⟨fun hu => hf (hr.mpr hu), .inl rfl⟩

/-! ## 5. Slots -/

theorem slot_some (hfit : w.Fit c) {i : Nat} (hi : i < c.count) :
    ∃ found, w.slots[i]? = some found :=
  ⟨_, Array.getElem?_eq_getElem (by rw [hfit.slots]; exact hi)⟩

theorem safe_slotAt {i : Nat} (hfit : w.Fit c) (hi : i < c.count) :
    Safe c s F loops slots w (slotAt i) (fun found w' => w' = w ∧ w.slots[i]? = some found) S := by
  obtain ⟨found, hf⟩ := slot_some hfit hi
  refine safe_get_bind ?_
  simp only [hf]
  exact safe_pure hfit ⟨rfl, rfl⟩

theorem getElem?_setIfInBounds {l : Slots} {i j : Nat} {found : Option Span} (h : i < l.size) :
    (l.setIfInBounds i found)[j]? = if i = j then some found else l[j]? := by
  rw [Array.getElem?_setIfInBounds]
  split
  · rfl
  · rfl

theorem safe_setSlot {i : Nat} {found : Option Span} (hfit : w.Fit c) (hi : i < c.count)
    (hs : slots i) (hin : ∀ span, found = some span → span.isInside c.data = true) :
    Safe c s F loops slots w (setSlot i found)
      (fun _ w' => w' = { w with slots := w.slots.setIfInBounds i found }) S := by
  have hlt : i < w.slots.size := by rw [hfit.slots]; exact hi
  refine meets_modify ⟨⟨rfl, rfl, fun _ _ => rfl, fun _ _ _ => rfl, fun j hj => ?_,
    [], rfl, by simp⟩, ⟨hfit.data, hfit.inside, hfit.tree, hfit.good, ?_, fun j span hj => ?_⟩,
    rfl⟩
  · rw [getElem?_setIfInBounds hlt, if_neg fun e : i = j => hj (e ▸ hs)]
  · rw [Array.size_setIfInBounds, hfit.slots]
  · rw [getElem?_setIfInBounds hlt] at hj
    split at hj
    · exact hin span (Option.some.inj hj)
    · exact hfit.spans j span hj

theorem safe_release {i : Nat} (hfit : w.Fit c) (hi : i < c.count) (hs : slots i) :
    Safe c s F loops slots w (release i)
      (fun _ w' => w' = { w with slots := w.slots.setIfInBounds i none }) S := by
  refine (safe_slotAt hfit hi).bind fun _ w' _ _ h => ?_
  obtain ⟨rfl, _⟩ := h
  exact safe_setSlot hfit hi hs (by simp)

theorem safe_note {e : Event} (hfit : w.Fit c) (he : w.Allows e) :
    Safe c s F loops slots w (note e) (fun _ w' => w' = { w with trail := e :: w.trail }) S :=
  meets_note ⟨.of_cursor [e] rfl rfl rfl (by simpa using he),
    ⟨hfit.data, hfit.inside, hfit.tree, hfit.good, hfit.slots, hfit.spans⟩, rfl⟩

/-- **Looking at a slot** of the plan finds bytes of the document, if anything. -/
theorem safe_fetch {reader i : Nat} (hfit : w.Fit c) (hi : i < c.count) :
    Safe c s F loops slots w (fetch reader i) (fun found w' => Looked reader [i] w w' ∧
      w.slots[i]? = some found ∧
      ∀ span, found = some span → span.isInside c.data = true) S := by
  refine (safe_slotAt hfit hi).bind fun found w' _ _ h => ?_
  obtain ⟨rfl, hf⟩ := h
  refine (safe_note (e := .fetched reader i found) hfit trivial).bind fun _ w₁ _ hfit₁ h₁ => ?_
  subst h₁
  have looked : Looked reader [i] w' { w' with trail := .fetched reader i found :: w'.trail } :=
    ⟨⟨rfl, rfl⟩, rfl, [.fetched reader i found], rfl, by simpa using hf⟩
  cases found with
  | none => exact safe_pure hfit₁ ⟨looked, hf, by simp⟩
  | some span =>
    have hin := hfit.spans i span hf
    refine safe_get_bind ?_
    rw [if_pos (by rw [hfit₁.data]; exact hin)]
    refine safe_pure hfit₁ ⟨looked, hf, fun span' hs => ?_⟩
    cases hs
    exact hin

theorem safe_spanFrom {offset : Nat} (hfit : w.Fit c) (ho : offset < w.cursor.position) :
    Safe c s F loops slots w (spanFrom offset) (fun span w' => w' = w ∧
      span = .between offset w.cursor.position ∧ span.isInside c.data = true) S := by
  refine safe_get_bind ?_
  have hin : w.cursor.position ≤ w.cursor.data.length := hfit.inside
  rw [if_pos ⟨by omega, hin⟩]
  exact safe_pure hfit ⟨rfl, rfl, Span.isInside_between.mpr ⟨ho, hfit.data ▸ hin⟩⟩

/-- What capturing a value leaves: only the slot is different, and only if it was empty. -/
structure Captured (slot : Option Nat) (span : Span) (w w' : Walker) : Prop where
  state : w'.state = w.state
  cursor : w'.cursor = w.cursor
  filled : ∀ i, slot = some i → w.slots[i]? = some none → w'.slots[i]? = some (some span)
  kept : ∀ i, slot ≠ some i ∨ w.slots[i]? ≠ some none → w'.slots[i]? = w.slots[i]?
  trail : ∃ events, w'.trail = events ++ w.trail ∧ ∀ e ∈ events, ∃ i v, e = .captured i span v

/-- **Capturing a value that has been read.** -/
theorem safe_capture {token : Token} {v : Value} {slot : Option Nat} (hfit : w.Fit c)
    (hi : ∀ i, slot = some i → i < c.count) (hs : ∀ i, slot = some i → slots i)
    (ho : token.offset < w.cursor.position) :
    Safe c s F loops slots w (capture token v slot)
      (fun _ w' => Captured slot (.between token.offset w.cursor.position) w w') S := by
  cases slot with
  | none =>
    exact safe_pure hfit ⟨rfl, rfl, (by simp), fun _ _ => rfl, [], rfl, by simp⟩
  | some i =>
    refine (safe_slotAt hfit (hi i rfl)).bind fun found w' _ _ h => ?_
    obtain ⟨rfl, hf⟩ := h
    cases found with
    | some span =>
      refine safe_pure hfit ⟨rfl, rfl, fun j hj he => ?_, fun _ _ => rfl, [], rfl, by simp⟩
      cases hj
      rw [hf] at he
      cases he
    | none =>
      refine (safe_spanFrom hfit ho).bind fun span w₁ _ _ h => ?_
      obtain ⟨rfl, rfl, hin⟩ := h
      refine (safe_setSlot hfit (hi i rfl) (hs i rfl) fun span' e => ?_).bind
        fun _ w₂ _ hfit₂ h₂ => ?_
      · cases e
        exact hin
      · subst h₂
        have hlt : i < w₁.slots.size := by rw [hfit.slots]; exact hi i rfl
        refine (safe_note (e := .captured i (.between token.offset w₁.cursor.position) v) hfit₂
          trivial).mono (fun _ w₃ _ _ h₃ => ?_) fun _ _ h => h
        subst h₃
        refine ⟨rfl, rfl, fun j hj _ => ?_, fun j hj => ?_, [_], rfl, by simp⟩
        · cases hj
          exact (getElem?_setIfInBounds hlt).trans (if_pos rfl)
        · refine (getElem?_setIfInBounds hlt).trans (if_neg fun e : i = j => ?_)
          subst e
          rcases hj with hj | hj
          · exact hj rfl
          · exact hj hf

/-! ## 6. Tests -/

/-- **Making a test** leaves its bucket known. -/
theorem safe_test {t : Test} {v : Value} (hfit : w.Fit c) (hb : w.Markable c t.bucket)
    (hr : ∀ i ∈ t.check.slots, i < c.count) :
    Safe c s F loops slots w (test v t)
      (fun _ w' => w'.Known t.bucket ∧ Answered t.check.slots t.bucket
        (t.check.holds s.decimals (w.slots.value c.data) v) w w')
      (Answered t.check.slots t.bucket (t.check.holds s.decimals (w.slots.value c.data) v) w) := by
  refine (safe_isUnknown hfit hb.lt).bind fun r w' _ _ h => ?_
  obtain ⟨rfl, hr'⟩ := h
  split
  · next ht =>
    refine (safe_forM (D := fun _ _ => True) (K := Looked t.bucket t.check.slots w') hfit (.refl _ _ _)
      (fun i hi w₁ _ hfit₁ h₁ => ?_) fun _ _ _ _ _ _ _ => trivial).bind
      fun _ w₁ hm₁ hfit₁ h₁ => ?_
    · refine (safe_fetch hfit₁ (hr i hi)).bind fun _ w₂ _ hfit₂ h₂ => ?_
      refine safe_pure hfit₂ ⟨trivial, h₁.trans ⟨h₂.1.toSameMarks, h₂.1.cursor, ?_⟩⟩
      obtain ⟨es, ht, he⟩ := h₂.1.trail
      refine ⟨es, ht, fun e hm => ?_⟩
      obtain ⟨j, hj, he⟩ := he e hm
      exact ⟨j, List.mem_singleton.mp hj ▸ hi, he⟩
    · obtain ⟨-, h₁⟩ := h₁
      have hv : t.check.holds s.decimals (w₁.slots.value w₁.cursor.data) v =
          t.check.holds s.decimals (w'.slots.value c.data) v := by rw [h₁.slots, hfit₁.data]
      refine safe_get_bind (safe_read_bind ?_)
      rw [hv]
      refine (safe_mark hfit₁ (hm₁.markable hb) ?_).mono
        (fun _ _ _ _ h => ⟨h.known, .inr ⟨w₁, h₁, h⟩⟩) fun _ _ h => .inr ⟨w₁, h₁, h⟩
      rw [h₁.state]
      exact hr'.mp ht
  · next hf => exact safe_pure hfit ⟨fun hu => hf (hr'.mpr hu), .inl rfl⟩

end Walk

end Sift
