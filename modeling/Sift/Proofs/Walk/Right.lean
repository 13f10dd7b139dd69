import Sift.Proofs.Walk.Safety
import Sift.Proofs.Plan.Scene
import Sift.Proofs.Document.Layout

/-!
# Walkers that are right

`Walker.Right told truth w`: every value that is known is the one that is true, and every slot that
has been looked at held what was expected. `Sure` says of a part of a walk over a
document that it keeps this and does not fail.

The rules are those for safe parts, and this module has the sure versions of what walks are made
of: a step comes to the token that lies there, and a test or a loop is answered by what is true.
-/

namespace Sift

open Resolution

variable {loops slots : Nat → Prop} {c : Course} {told : Told} {truth : Nat → Bool} {k : Scene}
  {w w' w'' : Walker}

/-! ## 1. Walkers -/

/-- What a slot of a walker holds. -/
def Walker.held (w : Walker) (s : Nat) : Option Span := (w.slots[s]?).join

/-- Every slot that has been looked at held what was expected. -/
def Faithful (told : Told) (trail : List Event) : Prop :=
  ∀ later b s found earlier, trail = later ++ .fetched b s found :: earlier → told earlier b s found

/-- **What is known is true, and what was looked at was expected.** -/
structure Walker.Right (told : Told) (truth : Nat → Bool) (w : Walker) : Prop where
  sound : w.state.Sound truth
  faithful : Faithful told w.trail

/-- The trails that there may be from now on are those of the scene. -/
def Scene.Lasts (k : Scene) (w : Walker) : Prop :=
  ∀ events, (∀ e ∈ events, w.Allows e) → k.now (events ++ w.trail)

theorem faithful_nil : Faithful told [] := fun later _ _ _ _ h => by
  cases later <;> cases h

theorem faithful_cons {e : Event} {trail : List Event} (h : Faithful told trail)
    (he : ∀ b s found, e = .fetched b s found → told trail b s found) :
    Faithful told (e :: trail) := fun later b s found earlier heq => by
  cases later with
  | nil =>
    obtain ⟨rfl, rfl⟩ := List.cons.inj heq
    exact he b s found rfl
  | cons e' later => exact h later b s found earlier (List.cons.inj heq).2

theorem faithful_blind {trail : List Event} (h : Faithful told trail) :
    ∀ {events : List Event}, (∀ e ∈ events, e.Blind) → Faithful told (events ++ trail)
  | [], _ => h
  | e :: events, he => by
    refine faithful_cons (faithful_blind h fun e' hm => he e' (List.mem_cons_of_mem e hm))
      fun b s found heq => ?_
    have := he e List.mem_cons_self
    rw [heq] at this
    exact this.elim

theorem Moves.lasts (h : Moves loops slots w w') (hk : k.Lasts w) : k.Lasts w' := by
  intro events he
  obtain ⟨es, ht, hes⟩ := h.trail
  rw [ht, ← List.append_assoc]
  refine hk _ fun e hm => ?_
  rcases List.mem_append.mp hm with hm | hm
  · exact h.allows.mp (he e hm)
  · exact hes e hm

theorem held_of_slots (h : w'.slots = w.slots) (s : Nat) : w'.held s = w.held s := by
  rw [Walker.held, Walker.held, h]

theorem Moves.held (h : Moves loops slots w w') {s : Nat} (hs : ¬ slots s) :
    w'.held s = w.held s := by
  rw [Walker.held, Walker.held, h.slots s hs]

/-- Looking at slots that hold what is expected. -/
theorem Walk.Looked.faithful {b : Nat} {reads : List Nat} (h : Walk.Looked b reads w w')
    (hf : Faithful told w.trail) (hk : k.Lasts w)
    (hr : ∀ s ∈ reads, k.Tells told b s ∧ w.held s = (k.held s).map Doc.span) :
    Faithful told w'.trail := by
  obtain ⟨events, ht, he⟩ := h.trail
  rw [ht]
  clear ht
  induction events with
  | nil => exact hf
  | cons e events ih =>
    refine faithful_cons (ih fun e' hm => he e' (List.mem_cons_of_mem e hm))
      fun b' s found heq => ?_
    obtain ⟨i, hi, found', hslot, he'⟩ := he e List.mem_cons_self
    rw [heq] at he'
    cases he'
    obtain ⟨htells, hheld⟩ := hr _ hi
    rw [Walker.held, hslot, Option.join_some] at hheld
    rw [hheld]
    refine htells _ (hk _ fun e' hm => ?_)
    obtain ⟨_, _, _, _, rfl⟩ := he e' (List.mem_cons_of_mem e hm)
    trivial

namespace Walk

variable {α β : Type} {s : Setting} {m : Walk α} {Q : α → Walker → Prop}

/-! ## 2. Sure parts of a walk -/

/-- **A sure part of a walk**: it does not fail, and keeps the walker right. -/
def Sure (c : Course) (s : Setting) (told : Told) (truth : Nat → Bool) (loops slots : Nat → Prop)
    (w : Walker) (m : Walk α) (Q : α → Walker → Prop) : Prop :=
  Safe c s (fun _ => False) loops slots w m (fun a w' => w'.Right told truth ∧ Q a w')
    (Walker.Right told truth)

theorem Sure.mono {Q' : α → Walker → Prop} (h : Sure c s told truth loops slots w m Q)
    (hq : ∀ a w', Moves loops slots w w' → w'.Fit c → w'.Right told truth → Q a w' → Q' a w') :
    Sure c s told truth loops slots w m Q' :=
  Safe.mono h (fun a w' hm hfit h => ⟨h.1, hq a w' hm hfit h.1 h.2⟩) fun _ _ h => h

theorem Sure.widen {loops' slots' : Nat → Prop} (h : Sure c s told truth loops slots w m Q)
    (hl : ∀ i, loops i → loops' i) (hs : ∀ i, slots i → slots' i) :
    Sure c s told truth loops' slots' w m Q := Safe.widen h hl hs

/-- **One sure part after the other.** -/
theorem Sure.bind {f : α → Walk β} {R : β → Walker → Prop}
    (h : Sure c s told truth loops slots w m Q)
    (hf : ∀ a w', Moves loops slots w w' → w'.Fit c → w'.Right told truth → Q a w' →
      Sure c s told truth loops slots w' (f a) R) : Sure c s told truth loops slots w (m >>= f) R :=
  Safe.bind h fun a w' hm hfit h => hf a w' hm hfit h.1 h.2

theorem sure_pure {a : α} (hfit : w.Fit c) (hr : w.Right told truth) (h : Q a w) :
    Sure c s told truth loops slots w (pure a) Q := safe_pure hfit ⟨hr, h⟩

theorem sure_get_bind {f : Walker → Walk α} (h : Sure c s told truth loops slots w (f w) Q) :
    Sure c s told truth loops slots w (get >>= f) Q := h

/-- A sure part of which something more is known whatever the document is. -/
theorem Sure.and_safe {F : MatchError → Prop} {loops' slots' : Nat → Prop}
    {Q' : α → Walker → Prop} {S : Walker → Prop} (h : Sure c s told truth loops slots w m Q)
    (h' : Safe c s F loops' slots' w m Q' S) :
    Sure c s told truth loops slots w m fun a w' => Q a w' ∧ Q' a w' := by
  refine (Meets.and h h').mono (fun a w' hw => ?_) fun e w' hw => ?_
  · exact ⟨hw.1.1, hw.1.2.1, hw.1.2.2.1, hw.1.2.2.2, hw.2.2.2⟩
  · exact hw.1

/-- **Thing after thing**, where `K rest` holds while `rest` is still to be done. -/
theorem sure_forM {f : α → Walk PUnit} {l : List α} {K : List α → Walker → Prop}
    (hfit : w.Fit c) (hr : w.Right told truth) (hk : K l w)
    (hf : ∀ a rest w', a ∈ l → Moves loops slots w w' → w'.Fit c → w'.Right told truth →
      K (a :: rest) w' → Sure c s told truth loops slots w' (f a) fun _ => K rest) :
    Sure c s told truth loops slots w (l.forM f) fun _ => K [] := by
  induction l generalizing w with
  | nil => exact sure_pure hfit hr hk
  | cons a rest ih =>
    rw [List.forM_eq_forM, List.forM_cons]
    refine (hf a rest w List.mem_cons_self (.refl w) hfit hr hk).bind
      fun _ w' hm hfit' hr' hk' => ?_
    exact ih hfit' hr' hk' fun b rest w'' hb hm' =>
      hf b rest w'' (List.mem_cons_of_mem a hb) (hm.trans hm')

/-! ## 3. Reading -/

/-- **A part of a walk that only reads**, and finds what it needs. -/
def Reading (c : Course) (s : Setting) (loops slots : Nat → Prop) (w : Walker) (m : Walk α)
    (P : α → Walker → Prop) : Prop :=
  Safe c s (fun _ => False) loops slots w m (fun a w' => OnlyReads w w' ∧ P a w') fun _ => False

variable {P : α → Walker → Prop} {pos stop : Nat} {t : Token}

theorem Reading.bind {f : α → Walk β} {R : β → Walker → Prop}
    (h : Reading c s loops slots w m P)
    (hf : ∀ a w', w'.Fit c → P a w' → Reading c s loops slots w' (f a) R) :
    Reading c s loops slots w (m >>= f) R :=
  Safe.bind h fun a w' _ hfit h => Safe.mono (hf a w' hfit h.2)
    (fun _ _ _ _ h' => ⟨h.1.trans h'.1, h'.2⟩) fun _ _ h => h

theorem reading_pure {a : α} (hfit : w.Fit c) (h : P a w) :
    Reading c s loops slots w (pure a) P := safe_pure hfit ⟨.refl w, h⟩

theorem Right.of_onlyReads (h : OnlyReads w w') (hr : w.Right told truth) :
    w'.Right told truth := by
  obtain ⟨events, ht, he⟩ := h.blind
  refine ⟨by rw [h.state]; exact hr.sound, ?_⟩
  rw [ht]
  exact faithful_blind hr.faithful he

/-- Reading keeps a walker right. -/
theorem Reading.sure (h : Reading c s loops slots w m P) (hr : w.Right told truth) :
    Sure c s told truth loops slots w m fun a w' => OnlyReads w w' ∧ P a w' :=
  Safe.mono h (fun _ _ _ _ h => ⟨Right.of_onlyReads h.1 hr, h⟩) fun _ _ h => h.elim

/-- **A step comes to the token that lies there.** -/
theorem reading_step (hfit : w.Fit c) (hn : Token.Next c.data w.cursor.position t) :
    Reading c s loops slots w step fun token w' => token = t ∧ w'.cursor.position = t.stop := by
  obtain ⟨cursor, hs, -, hp⟩ := step_of_next hfit.data hn
  refine (safe_step hfit fun e cursor' h => ?_).mono (fun token w' _ _ h => ?_) fun _ _ h => h
  · rw [hs] at h
    cases h
  · obtain ⟨ho, h⟩ := h
    rw [hs] at h
    cases h
    exact ⟨ho, rfl, hp⟩

theorem reading_skip (hfit : w.Fit c) (hl : Leaves c.data w.cursor.position stop) :
    Reading c s loops slots w skipContainer fun _ w' => w'.cursor.position = stop := by
  obtain ⟨cursor, hs, -, hp⟩ := skipContainer_of_leaves hfit.data hl
  refine (safe_skipContainer hfit fun e cursor' h => ?_).mono (fun _ w' _ _ h => ?_) fun _ _ h => h
  · rw [hs] at h
    cases h
  · obtain ⟨ho, _, h⟩ := h
    rw [hs] at h
    cases h
    exact ⟨ho, hp⟩

theorem reading_seek (hfit : w.Fit c) (h : pos ≤ c.data.length) :
    Reading c s loops slots w (seek pos) fun _ w' => w'.cursor.position = pos := safe_seek hfit h

/-- Passing a value whose first token has been read. -/
theorem reading_skipValue {d : Doc} (hfit : w.Fit c) (hd : d.Lies c.data)
    (hp : w.cursor.position = d.opening.stop) :
    Reading c s loops slots w (skipValue d.opening) fun _ w' => w'.cursor.position = d.stop := by
  unfold skipValue
  split
  · next ho => exact reading_skip hfit (hp ▸ hd.inside ho)
  · next ho =>
    have hs := hd.kind.resolve_right ho
    rw [if_pos hs]
    exact reading_pure hfit (hp.trans (Doc.stop_of_isScalar hd hs).symm)

/-- Passing a value from where it starts. -/
theorem reading_passAt {d : Doc} (hfit : w.Fit c) (hd : d.Lies c.data) :
    Reading c s loops slots w (passAt d.opening.offset) fun _ w' =>
      w'.cursor.position = d.stop := by
  obtain ⟨h₁, h₂, h₃⟩ := hd.bounds
  refine (reading_seek hfit (by omega)).bind fun _ w₁ hfit₁ h₁ => ?_
  refine (reading_step hfit₁ (h₁ ▸ hd.again)).bind fun t w₂ hfit₂ h₂ => ?_
  obtain ⟨rfl, hp₂⟩ := h₂
  exact reading_skipValue hfit₂ hd hp₂

/-- A part of a container that is followed by another. -/
theorem reading_nextPart {closing : TokenKind} {e : Expected} (hfit : w.Fit c)
    (h : Continues c.data w.cursor.position t) :
    Reading c s loops slots w (nextPart closing e) fun r w' =>
      r = some t ∧ w'.cursor.position = t.stop := by
  obtain ⟨comma, hn, hk, ht⟩ := h
  refine (reading_step hfit hn).bind fun token w₁ hfit₁ h₁ => ?_
  obtain ⟨rfl, hp₁⟩ := h₁
  rw [if_pos hk]
  refine (reading_step hfit₁ (hp₁ ▸ ht)).bind fun token w₂ hfit₂ h₂ => ?_
  obtain ⟨rfl, hp₂⟩ := h₂
  exact reading_pure hfit₂ ⟨rfl, hp₂⟩

/-- The last part of a container. -/
theorem reading_lastPart {closing : TokenKind} {e : Expected} (hfit : w.Fit c)
    (hne : closing ≠ .listDelim) (h : Closes c.data closing w.cursor.position stop) :
    Reading c s loops slots w (nextPart closing e) fun r w' =>
      r = none ∧ w'.cursor.position = stop := by
  obtain ⟨t, hn, hk, rfl⟩ := h
  refine (reading_step hfit hn).bind fun token w₁ hfit₁ h₁ => ?_
  obtain ⟨rfl, hp₁⟩ := h₁
  rw [if_neg (hk ▸ hne), if_pos hk]
  exact reading_pure hfit₁ ⟨rfl, hp₁⟩

/-- What stands between a key and its value. -/
theorem reading_memberStart {key first : Token} (hfit : w.Fit c)
    (hp : w.cursor.position = key.stop) (h : Introduces c.data key first) :
    Reading c s loops slots w (memberStart key) fun token w' =>
      token = first ∧ w'.cursor.position = first.stop := by
  obtain ⟨hs, colon, hc, hk, hf⟩ := h
  unfold memberStart
  rw [if_pos hs]
  refine (reading_step hfit (hp ▸ hc)).bind fun token w₁ hfit₁ h₁ => ?_
  obtain ⟨rfl, hp₁⟩ := h₁
  rw [if_pos hk]
  exact reading_step hfit₁ (hp₁ ▸ hf)

/-! ## 4. Answers -/

/-- What an answer of a bucket has to be, as long as nothing is known of the bucket. -/
def Due (told : Told) (k : Scene) (reads : List Nat) (b : Nat) (v : Bool) (w : Walker) : Prop :=
  w.state.get b = .unknown →
    k.truth b = v ∧ ∀ i ∈ reads, k.Tells told b i ∧ w.held i = (k.held i).map Doc.span

theorem Right.of_marked {b : Nat} {v : Bool} (h : Marked b v w w') (hfit : w.Fit c)
    (hb : w.Markable c b) (hc : c.tree.Consistent truth) (hr : w.Right told truth)
    (hv : truth b = v) : w'.Right told truth := by
  have ht := hfit.tree
  have hw : w.state.Within b := fun i hi => by
    rw [ht]
    exact hb.below i hi
  refine ⟨?_, ?_⟩
  · exact hr.sound.mark hfit.good.valid (by rw [ht]; exact hc) (by rw [ht]; exact hb.lt) hw
      (by rw [hv]; exact h.state)
  · obtain ⟨decided, ht⟩ := h.trail
    rw [ht]
    exact faithful_cons hr.faithful nofun

theorem Right.of_answered {reads : List Nat} {b : Nat} {v : Bool} (h : Answered reads b v w w')
    (hfit : w.Fit c) (hb : w.Markable c b) (hc : c.tree.Consistent k.truth) (hk : k.Lasts w)
    (hr : w.Right told k.truth) (hd : Due told k reads b v w) : w'.Right told k.truth := by
  rcases h with rfl | ⟨w₁, hl, hm⟩
  · exact hr
  · have hu : w.state.get b = .unknown := by
      rw [← hl.state]
      exact hm.unknown
    obtain ⟨hv, hreads⟩ := hd hu
    have hr₁ : w₁.Right told k.truth :=
      ⟨by rw [hl.state]; exact hr.sound, hl.faithful hr.faithful hk hreads⟩
    have hfit₁ : w₁.Fit c := fit_of_cursor hfit hl.toSameMarks (by rw [hl.cursor])
      (by rw [hl.cursor]; exact hfit.inside)
    have hb₁ : w₁.Markable c b := by
      unfold Walker.Markable
      rw [hl.state]
      exact hb
    exact Right.of_marked hm hfit₁ hb₁ hc hr₁ hv

theorem sure_mark {b : Nat} {v : Bool} (hfit : w.Fit c) (hr : w.Right told truth)
    (hb : w.Markable c b) (hc : c.tree.Consistent truth) (hu : w.state.get b = .unknown)
    (hv : truth b = v) :
    Sure c s told truth loops slots w (mark b v) fun _ => Marked b v w :=
  (safe_mark hfit hb hu).mono (fun _ _ _ _ h => ⟨Right.of_marked h hfit hb hc hr hv, h⟩)
    fun _ _ h => Right.of_marked h hfit hb hc hr hv

theorem sure_markIfUnknown {b : Nat} {v : Bool} (hfit : w.Fit c) (hr : w.Right told k.truth)
    (hb : w.Markable c b) (hc : c.tree.Consistent k.truth) (hk : k.Lasts w)
    (hv : w.state.get b = .unknown → k.truth b = v) :
    Sure c s told k.truth loops slots w (markIfUnknown b v) fun _ w' =>
      w'.Known b ∧ Answered [] b v w w' := by
  have right {w' : Walker} (h : Answered [] b v w w') : w'.Right told k.truth :=
    Right.of_answered h hfit hb hc hk hr fun hu => ⟨hv hu, by simp⟩
  exact (safe_markIfUnknown hfit hb).mono (fun _ _ _ _ h => ⟨right h.2, h⟩) fun _ _ h => right h

/-- What a slot is worth that holds what it should. -/
theorem value_of_held {i : Nat} (hl : ∀ x, k.held i = some x → x.Lies c.data)
    (h : w.held i = (k.held i).map Doc.span) :
    w.slots.value c.data i = k.captured c.data i := by
  rw [Slots.value, show (w.slots[i]?).join = w.held i from rfl, h, Scene.captured]
  cases hx : k.held i with
  | none => rfl
  | some x => exact Doc.span_value (hl x hx)

/-- **A test is answered by what is true**, if its slots hold what they should. -/
theorem sure_test {t : Test} {v : Value} (hfit : w.Fit c) (hr : w.Right told k.truth)
    (hb : w.Markable c t.bucket) (hc : c.tree.Consistent k.truth) (hk : k.Lasts w)
    (hcount : ∀ i ∈ t.check.slots, i < c.count) (hl : ∀ i x, k.held i = some x → x.Lies c.data)
    (hd : Due told k t.check.slots t.bucket (t.check.holds s.decimals (k.captured c.data) v) w) :
    Sure c s told k.truth loops slots w (test v t) fun _ w' =>
      w'.Known t.bucket ∧ w'.slots = w.slots ∧ SamePlace w w' := by
  have due : Due told k t.check.slots t.bucket
      (t.check.holds s.decimals (w.slots.value c.data) v) w := by
    intro hu
    obtain ⟨hv, hreads⟩ := hd hu
    refine ⟨?_, hreads⟩
    rw [hv]
    exact Check.holds_congr fun i hi => (value_of_held (hl i) (hreads i hi).2).symm
  have right {w' : Walker} (h : Answered t.check.slots t.bucket
      (t.check.holds s.decimals (w.slots.value c.data) v) w w') : w'.Right told k.truth :=
    Right.of_answered h hfit hb hc hk hr due
  exact (safe_test hfit hb hcount).mono
    (fun _ _ _ _ h => ⟨right h.2, h.1, h.2.slots_eq, by rw [SamePlace, h.2.cursor_eq]⟩)
    fun _ _ h => right h

end Walk

end Sift
