import Sift.Proofs.Walk.Answers

/-!
# Loops over elements

What a loop does with an array that lies in the document. `Runs` says that the body of a loop is
right for every element; then the loop comes to what `LoopMode.over` says of the elements
(`sure_runLoop`), although it reads no more of them than it needs.

Between two elements the marks below the loop say what was true of the one before. Turning to the
next forgets them, so each element is read in a scene of its own (`Runs.begin`).
-/

namespace Sift

open Resolution

/-! ## 1. Deciding a loop early -/

namespace LoopMode

variable {mode : LoopMode} {a : Bool} {l : List Doc} {p : Doc → Bool} {x : Doc}

/-- What a loop comes to over the elements that remain. `a` says whether one before them
    satisfied the body. -/
def overRest (mode : LoopMode) (a : Bool) (l : List Doc) (p : Doc → Bool) : Bool :=
  match mode with
  | .any => l.any p
  | .every => l.all p
  | .anyEvery => l.all p && (a || !l.isEmpty)

theorem over_eq_overRest : mode.over (some l) p = mode.overRest false l p := by
  cases mode <;> rfl

theorem overRest_nil : mode.overRest a [] p = mode.conclusion a := by
  cases mode with
  | any => rfl
  | every => rfl
  | anyEvery => simp [overRest, conclusion]

/-- An element that decides the loop. -/
theorem overRest_of_decision {v : Bool} (h : mode.decision (p x) = some v) :
    mode.overRest a (x :: l) p = v := by
  cases mode <;> cases hs : p x <;> rw [hs] at h <;> simp_all [decision, overRest]

/-- An element that does not. -/
theorem overRest_of_undecided (h : mode.decision (p x) = none) :
    mode.overRest a (x :: l) p = mode.overRest (a || p x) l p := by
  cases mode <;> cases hs : p x <;> rw [hs] at h <;> simp_all [decision, overRest]

end LoopMode

/-! ## 2. Loops that are right -/

variable {loops slots : Nat → Prop} {c : Course} {s : Setting} {told : Told} {k : Scene} {l : Loop}
  {inner : Doc → Nat → Bool} {items : List Doc} {x : Doc} {w w₁ w₂ : Walker}

/-- **A loop may be run over these elements**, of which `inner` is true. -/
structure Runs (c : Course) (s : Setting) (told : Told) (k : Scene) (l : Loop)
    (inner : Doc → Nat → Bool) (items : List Doc) (w : Walker) : Prop where
  enters : Enters c l w
  stands : Stands c w.state.stall told k (· ∈ l.body.slots) w
  locals : ∀ i path, (i, path) ∈ l.body.places → i ∈ l.locals
  answers : Walk.Answers c s (some l.bucket) told l.body
  consistent : ∀ x, c.tree.Consistent (inner x)
  means : ∀ x ∈ items, l.body.Means c (k.inside (inner x) l x) (some x)
  tells : ∀ x ∈ items, ∀ truth, l.body.Tells told (k.inside truth l x) (some x)

/-- **A walker in a loop that is right.** -/
structure Turning (c : Course) (told : Told) (l : Loop) (w w' : Walker) : Prop extends
    InLoop c l w w' where
  faithful : Faithful told w'.trail

/-- What happens in a body does not turn to another element. -/
theorem currentIn_append {bucket : Nat} {events trail : List Event}
    (h : ∀ e ∈ events, ∀ b first marks slots, e = .began b first marks slots → b ≠ bucket) :
    currentIn bucket (events ++ trail) = currentIn bucket trail := by
  induction events with
  | nil => rfl
  | cons e events ih =>
    have ih := ih fun e' hm => h e' (List.mem_cons_of_mem e hm)
    cases e with
    | began b first marks slots =>
      rw [List.cons_append, currentIn, if_neg (h _ List.mem_cons_self b first marks slots rfl), ih]
    | _ => exact ih

/-- **An element is read in a scene of its own.** -/
theorem Runs.begin (h : Runs c s told k l inner items w) (hx : x ∈ items)
    (ht : Turning c told l w w₁) (hi : InLoop c l w w₂) (hb : Walk.Begun c l x.opening w₁ w₂) :
    Stands c (some l.bucket) told (k.inside (inner x) l x) (· ∈ l.body.slots) w₂ ∧
      Poised c told (k.inside (inner x) l x) (some x) l.body (fun _ => none) w₂ := by
  refine ⟨⟨hi.fit, hi.stall, ⟨fun j b hj hv => ?_, ?_⟩, fun events he => ⟨?_, ?_⟩, h.consistent x,
    h.stands.apart, fun i hr => ?_, h.stands.unread, h.stands.lies⟩,
    .inr ⟨h.means x hx, h.tells x hx _, fun i path hp => ?_⟩⟩
  · rw [hb.unknown j (hi.within.mp hj)] at hv
    cases hv
  · rw [hb.trail]
    exact faithful_cons ht.faithful nofun
  · obtain ⟨es, htrail, hes⟩ := hi.trail
    rw [htrail, ← List.append_assoc]
    refine h.stands.lasts _ fun e hm => ?_
    rcases List.mem_append.mp hm with hm | hm
    · exact hi.allows h.enters (he e hm)
    · exact hes e hm
  · rw [currentIn_append fun e hm b first marks slots heq => ?_, hb.trail, currentIn, if_pos rfl]
    subst heq
    have hbelow : c.tree.isBelow l.bucket b = true := hi.within.mp (he _ hm)
    rintro rfl
    rw [h.enters.not_below] at hbelow
    cases hbelow
  · rw [Walker.held, hi.slots i (h.stands.apart i hr)]
    exact h.stands.held i hr
  · rw [Walker.held, hb.empty i (h.locals i path hp)]
    rfl

namespace Walk

variable {α : Type} {m : Walk α} {P : α → Walker → Prop}

/-- What only reads stays in the loop. -/
theorem Turning.reading (ht : Turning c told l w w₁) (h : Enters c l w)
    (hm : Reading c s (fun _ => False) (· ∈ l.body.slots) w₁ m P) :
    Meets s w₁ m (fun a w₂ => Turning c told l w w₂ ∧ P a w₂) (Fails (fun _ => False) w) := by
  refine (ht.run h hm).mono (fun _ w₂ h₂ => ⟨⟨h₂.1, ?_⟩, h₂.2.2⟩) fun _ _ h => h
  obtain ⟨events, htrail, he⟩ := h₂.2.1.blind
  rw [htrail]
  exact faithful_blind ht.faithful he

/-! ## 3. One element -/

/-- **The body of an element comes to what is true of it.** -/
theorem Runs.body (h : Runs c s told k l inner items w) (hx : x ∈ items) (hd : x.Lies c.data)
    (ht : Turning c told l w w₁) (hi : InLoop c l w w₂) (hb : Begun c l x.opening w₁ w₂)
    (hpos : w₂.cursor.position = x.opening.stop) :
    Meets s w₂ (settles (l.body.halting.handle x.opening)) (fun early w₃ => Turning c told l w w₃ ∧
      w₃.state.get (c.tree.node l.bucket).left = .value (inner x (c.tree.node l.bucket).left) ∧
      ((early && !x.opening.kind.isScalar) = false → w₃.cursor.position = x.stop))
      (Fails (fun _ => False) w) := by
  obtain ⟨hs, hp⟩ := Runs.begin h hx ht hi hb
  have hlt := hd.bounds.1
  -- whatever has a value in the body has the value that is true
  have value {w₃ : Walker} (hi₃ : InLoop c l w w₃) (hr₃ : w₃.Right told (inner x))
      (hk : w₃.Known (c.tree.node l.bucket).left) :
      w₃.state.get (c.tree.node l.bucket).left = .value (inner x (c.tree.node l.bucket).left) := by
    obtain ⟨v, hv⟩ := hi₃.body_value h.enters hk
    have hbelow := (h.enters.fit.tree ▸ h.enters.fit.good.valid).child_below
      h.enters.loop.bucket.lt (.inl rfl) (Nat.ne_of_gt (Nat.zero_lt_of_lt h.enters.body_lt.1))
    rw [hv, hr₃.sound _ v (hi₃.within.mpr hbelow.1) hv]
  refine meets_settles (Meets.mono (Meets.and (h.answers.handle h.enters.body hs hp hd hpos)
    (h.answers.secure.handle (t := x.opening) hs.fit hs.stall fun _ => by omega))
    (fun _ w₃ h₃ => ?_) fun e w₃ h₃ => ?_)
  · obtain ⟨⟨hm₃, hfit₃, hr₃, hpos₃, hk₃, -⟩, -⟩ := h₃
    have hi₃ := hi.moves h.enters hm₃ hfit₃ fun _ h => h
    exact ⟨⟨hi₃, hr₃.faithful⟩, value hi₃ hr₃ (hi₃.body_known h.enters hk₃), fun _ => hpos₃⟩
  · obtain ⟨h₃, h₃'⟩ := h₃
    cases e with
    | failed e => exact h₃.1.elim
    | settled =>
      obtain ⟨hm₃, hfit₃, hset, hr₃⟩ := h₃
      have hi₃ := hi.moves h.enters hm₃ hfit₃ fun _ h => h
      refine ⟨⟨hi₃, hr₃.faithful⟩, value hi₃ hr₃ (hi₃.body_settled hset), fun hk => ?_⟩
      rw [Bool.true_and, Bool.not_eq_false'] at hk
      rw [h₃'.2.2.2 hk, hpos, Doc.stop_of_isScalar hd hk]

/-! ## 4. All elements -/

/-- An element of an array, and those that follow it. -/
structure Remain (data : Bytes) (items : List Doc) (stop : Nat) (x : Doc) (rest : List Doc) :
    Prop where
  lies : x.Lies data
  more : Doc.MoreItems data stop x.stop rest
  mem : ∀ y ∈ x :: rest, y ∈ items

variable {stop fuel : Nat} {answer : Bool}

/-- Where a loop stands when the first token of an element has been read: what it comes to with the
    elements from there on is its answer. -/
structure AtElement (c : Course) (told : Told) (l : Loop) (inner : Doc → Nat → Bool)
    (items : List Doc) (stop : Nat) (answer : Bool) (w : Walker) (fuel : Nat) (a : Token × Bool)
    (w' : Walker) : Prop where
  turning : Turning c told l w w'
  element : ∃ x rest, a.1 = x.opening ∧ Remain c.data items stop x rest ∧
    w'.cursor.position = x.opening.stop ∧ c.data.length < fuel + x.opening.offset ∧
    l.mode.overRest a.2 (x :: rest) (fun y => inner y (c.tree.node l.bucket).left) = answer

/-- Where a loop stands when it has come to its answer. -/
structure Decided (c : Course) (told : Told) (l : Loop) (items : List Doc) (stop : Nat)
    (answer : Bool) (w : Walker) (v : Verdict) (w' : Walker) : Prop where
  turning : Turning c told l w w'
  answer : v.answer = answer
  whole : v.decider = none → w'.cursor.position = stop
  early : ∀ t, v.decider = some t → ∃ x rest, t = x.opening ∧ Remain c.data items stop x rest

/-- An element is passed, whether it has been read whole or not. -/
theorem Turning.passRest (ht : Turning c told l w w₁) (h : Enters c l w) (hd : x.Lies c.data)
    {early : Bool}
    (hp : (early && !x.opening.kind.isScalar) = false → w₁.cursor.position = x.stop) :
    Meets s w₁ (passRest early x.opening)
      (fun _ w₂ => Turning c told l w w₂ ∧ w₂.cursor.position = x.stop) (Fails (fun _ => False) w) := by
  unfold Walk.passRest
  split
  · exact Turning.reading ht h (reading_passAt ht.fit hd)
  · next hn => exact meets_pure ⟨ht, hp (Bool.eq_false_iff.mpr hn)⟩

/-- **One element.** -/
theorem Runs.element (h : Runs c s told k l inner items w) {a : Token × Bool}
    (ha : AtElement c told l inner items stop answer w (fuel + 1) a w₁) :
    Meets s w₁ (element l.bucket (c.tree.node l.bucket).left l.mode l.locals l.body.halting a)
      (fun r w₂ => match r with
        | .inl a => AtElement c told l inner items stop answer w fuel a w₂
        | .inr v => Decided c told l items stop answer w v w₂) (Fails (fun _ => False) w) := by
  obtain ⟨ht, x, rest, hfirst, hrem, hpos, hfuel, hanswer⟩ := ha
  obtain ⟨first, any⟩ := a
  obtain rfl : first = x.opening := hfirst
  have hx := hrem.mem x List.mem_cons_self
  obtain ⟨hlt, hle, -⟩ := hrem.lies.bounds
  refine (meets_beginElement ht.toInLoop h.enters).bind fun _ w₂ h₂ => ?_
  obtain ⟨hi₂, hbegun⟩ := h₂
  refine (Runs.body h hx hrem.lies ht hi₂ hbegun (by rw [hbegun.cursor, hpos])).bind
    fun early w₃ h₃ => ?_
  obtain ⟨ht₃, hv, hpos₃⟩ := h₃
  refine (meets_judge hv).bind fun satisfied w₄ h₄ => ?_
  obtain ⟨rfl, hw₄⟩ := h₄
  have ht₄ : Turning c told l w w₄ := by
    rw [hw₄]
    exact ⟨ht₃.note ⟨h.enters.within_self, _, rfl⟩, faithful_cons ht₃.faithful nofun⟩
  split
  · next v hdec =>
    refine meets_pure ⟨ht₄, ?_, fun h => (by cases h), fun t he =>
      ⟨x, rest, (Option.some.inj he).symm, hrem⟩⟩
    rw [← hanswer, LoopMode.overRest_of_decision (p := fun y =>
      inner y (c.tree.node l.bucket).left) hdec]
  · next hdec =>
    have hundecided := LoopMode.overRest_of_undecided (a := any) (l := rest)
      (p := fun y => inner y (c.tree.node l.bucket).left) hdec
    refine (Turning.passRest ht₄ h.enters hrem.lies (by rw [hw₄]; exact hpos₃)).bind
      fun _ w₅ h₅ => ?_
    obtain ⟨ht₅, hpos₅⟩ := h₅
    cases rest with
    | nil =>
      refine (Turning.reading ht₅ h.enters (reading_lastPart ht₅.fit TokenKind.noConfusion
        (by rw [hpos₅]; exact hrem.more))).bind fun r w₆ h₆ => ?_
      obtain ⟨ht₆, rfl, hpos₆⟩ := h₆
      refine meets_pure ⟨ht₆, ?_, fun _ => hpos₆, fun _ h => by cases h⟩
      rw [← hanswer, hundecided, LoopMode.overRest_nil]
    | cons y rest =>
      obtain ⟨hnext, hy, hmore⟩ := hrem.more
      refine (Turning.reading ht₅ h.enters (reading_nextPart ht₅.fit
        (by rw [hpos₅]; exact hnext))).bind fun r w₆ h₆ => ?_
      obtain ⟨ht₆, rfl, hpos₆⟩ := h₆
      refine meets_pure ⟨ht₆, y, rest, rfl, ⟨hy, hmore, fun z hz =>
        hrem.mem z (List.mem_cons_of_mem x hz)⟩, hpos₆, ?_, ?_⟩
      · have := hnext.le
        omega
      · rw [← hanswer, hundecided]

/-- The elements of an array. -/
theorem Runs.elements (h : Runs c s told k l inner items w) (hbound : s.bound = c.data.length + 1)
    (ht : Turning c told l w w₁) (hall : Doc.AllItems c.data stop w₁.cursor.position items) :
    Meets s w₁ (elements l.bucket (c.tree.node l.bucket).left l.mode l.locals l.body.halting)
      (Decided c told l items stop (l.mode.overRest false items fun y =>
        inner y (c.tree.node l.bucket).left) w) (Fails (fun _ => False) w) := by
  cases items with
  | nil =>
    obtain ⟨t, hn, hk, rfl⟩ := hall
    refine (Turning.reading ht h.enters (reading_step ht.fit hn)).bind fun first w₂ h₂ => ?_
    obtain ⟨ht₂, rfl, hpos₂⟩ := h₂
    rw [if_pos hk]
    exact meets_pure ⟨ht₂, LoopMode.overRest_nil.symm, fun _ => hpos₂, nofun⟩
  | cons x rest =>
    obtain ⟨hn, hx, hmore⟩ := hall
    refine (Turning.reading ht h.enters (reading_step ht.fit hn)).bind fun first w₂ h₂ => ?_
    obtain ⟨ht₂, rfl, hpos₂⟩ := h₂
    have hk : x.opening.kind ≠ .arrayEnd := fun hk => by
      rcases hx.kind with h | h <;> rw [hk] at h <;> cases h
    rw [if_neg hk]
    refine meets_repeatedly (meets_iterate
      (I := AtElement c told l inner (x :: rest) stop (l.mode.overRest false (x :: rest) fun y =>
        inner y (c.tree.node l.bucket).left) w)
      (fun fuel a w' ha => (Runs.element h ha).mono (fun r _ hr => ?_) fun _ _ h => h)
      (fun a w' ha => ?_) ?_)
    · cases r with
      | inl _ => exact hr
      | inr _ => exact hr
    · obtain ⟨-, y, _, -, hrem, -, hfuel, -⟩ := ha
      have := hrem.lies.bounds
      omega
    · exact ⟨ht₂, x, rest, rfl, ⟨hx, hmore, fun _ h => h⟩, hpos₂, by omega, rfl⟩

/-! ## 5. Loops -/

/-- **Leaving a loop** forgets what was true of its elements only. -/
theorem Turning.right (ht : Turning c told l w w₁) (h : Enters c l w)
    (hr : w.Right told k.truth)
    (hw : w₂ = { w₁ with state := (w₁.state.resetBelow l.bucket).withStall w.state.stall }) :
    w₂.Right told k.truth := by
  have htree := ht.fit.tree
  obtain ⟨hm, -, -⟩ := ht.leave h hw
  subst hw
  refine ⟨fun j b hj hv => ?_, ht.faithful⟩
  have get : (w₁.state.resetBelow l.bucket).get j = .value b := hv
  cases hbelow : c.tree.isBelow l.bucket j with
  | true =>
    rw [State.get_resetBelow_of_below (by rw [htree]; exact hbelow)] at get
    cases get
  | false =>
    rw [State.get_resetBelow_of_not_below (by rw [htree]; exact hbelow), ht.outside j hbelow] at get
    exact hr.sound j b (hm.within.mp hj) get

/-- **Running a loop** over an array that lies in the document marks it with what is true, and
    comes to where the array stops. -/
theorem sure_runLoop (h : Runs c s told k l inner items w) (hbound : s.bound = c.data.length + 1)
    (hall : Doc.AllItems c.data stop w.cursor.position items)
    (hv : k.truth l.bucket = l.mode.over (some items) fun x =>
      inner x (c.tree.node l.bucket).left) :
    Sure c s told k.truth (· = l.bucket) (· ∈ l.body.slots) w l.halting.run fun _ w' =>
      w'.cursor.position = stop := by
  have he := h.enters
  have hr := h.stands.right
  rw [Loop.halting_eq]
  refine Meets.bind (Q := fun outer w₁ => outer = w.state.stall ∧
    w₁ = { w with state := w.state.withStall (some l.bucket) })
    (meets_modifyGet ⟨rfl, rfl⟩) fun outer w₁ h₁ => ?_
  obtain ⟨rfl, hw₁⟩ := h₁
  have ht₁ : Turning c told l w w₁ := by
    rw [hw₁]
    exact ⟨he.enter, hr.faithful⟩
  refine (meets_bodyOf ht₁.toInLoop he).bind fun body w₂ h₂ => ?_
  obtain ⟨rfl, rfl⟩ := h₂
  refine Meets.bind ((Runs.elements h hbound ht₁ (by rw [hw₁]; exact hall)).mono (fun _ _ h => h)
    fun e _ h => ?_) fun verdict w₃ h₃ => ?_
  · cases e with
    | settled => exact h.elim
    | failed e => exact h
  · refine Meets.bind (meets_modify (Q := fun _ w₄ => w₄ = _) rfl) fun _ w₄ hw₄ => ?_
    obtain ⟨hm₄, hfit₄, hu₄⟩ := h₃.turning.leave he hw₄
    have hr₄ := Turning.right h₃.turning he hr hw₄
    have hcursor : w₄.cursor = w₃.cursor := by rw [hw₄]
    refine Safe.after hm₄ ?_
    have hanswer : k.truth l.bucket = verdict.answer := by
      rw [h₃.answer, hv, LoopMode.over_eq_overRest]
    refine Sure.bind (sure_mark hfit₄ hr₄ (hm₄.markable he.loop.bucket) h.stands.consistent hu₄
      hanswer) fun _ w₅ _ hfit₅ hr₅ h₅ => ?_
    unfold passArray
    split
    · next decider hdec =>
      obtain ⟨x, rest, rfl, hrem⟩ := h₃.early decider hdec
      refine (Reading.bind (reading_passAt hfit₅ hrem.lies) fun _ w₆ hfit₆ h₆ =>
        reading_skip hfit₆ (by rw [h₆]; exact hrem.more.leaves)).sure hr₅ |>.mono
        fun _ _ _ _ _ h => h.2
    · next hdec =>
      refine sure_pure hfit₅ hr₅ ?_
      rw [h₅.cursor, hcursor, h₃.whole hdec]

end Walk

end Sift
