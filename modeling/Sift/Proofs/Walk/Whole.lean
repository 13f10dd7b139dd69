import Sift.Proofs.Walk.Truth

/-!
# Walks over whole documents

A walk over a document that is well formed always ends well, and then the buckets to be answered
have the values that are true (`Plan.walk_right`): either it has come to the end, where everything
is known that the root is there to find out, or it has been settled before.
-/

namespace Sift

open Resolution

variable {c : Course} {s : Setting} {told : Told} {k : Scene} {n : Node} {d : Doc} {w w' : Walker}

/-- **The walk has come to its answers**, and they are true. -/
structure Settled (c : Course) (told : Told) (truth : Nat → Bool) (buckets : List Nat)
    (w : Walker) : Prop where
  fit : w.Fit c
  right : w.Right told truth
  stall : w.state.stall = none
  known : ∀ b ∈ buckets, w.Known b

/-- An answer has a value, and that is the one that is true. -/
theorem Settled.value {truth : Nat → Bool} {buckets : List Nat} (h : Settled c told truth buckets w)
    {b : Nat} (hb : b ∈ buckets) (ht : c.Top b) : w.state.get b = .value (truth b) := by
  have hw : w.state.Within b := fun i hi => by
    rw [h.stall] at hi
    cases hi
  obtain ⟨v, hv⟩ := h.fit.value_of_known (h.known b hb) ht
  rw [hv, h.right.sound b v hw hv]

namespace Walk

/-- The first token of a document. -/
theorem reading_opening {loops slots : Nat → Prop} (hfit : w.Fit c) (hpos : w.cursor.position = 0)
    (hd : d.Whole c.data) :
    Reading c s loops slots w opening fun token w' =>
      token = d.opening ∧ w'.cursor.position = d.opening.stop := by
  obtain ⟨hfirst, hlies, -⟩ := hd
  refine (reading_step hfit (hpos ▸ hfirst)).bind fun token w₁ hfit₁ h₁ => ?_
  obtain ⟨rfl, hpos₁⟩ := h₁
  rw [if_neg hlies.ne_finish]
  exact reading_pure hfit₁ ⟨rfl, hpos₁⟩

/-- The end of a document. -/
theorem reading_closing {loops slots : Nat → Prop} (hfit : w.Fit c)
    (hpos : w.cursor.position = d.stop) (hd : d.Whole c.data) :
    Reading c s loops slots w closing fun _ _ => True := by
  obtain ⟨-, -, last, hlast, hk⟩ := hd
  refine (reading_step hfit (hpos ▸ hlast)).bind fun token w₁ hfit₁ h₁ => ?_
  obtain ⟨rfl, -⟩ := h₁
  rw [if_pos hk]
  exact reading_pure hfit₁ trivial

/-- What a sure part of a walk comes to. -/
theorem Sure.meets {α : Type} {m : Walk α} {loops slots : Nat → Prop} {truth : Nat → Bool}
    {Q : α → Walker → Prop} {H : Halt → Walker → Prop} (h : Sure c s told truth loops slots w m Q)
    (hH : ∀ w', Moves loops slots w w' → w'.Fit c → s.isSettled w'.state = true →
      w'.Right told truth → H .settled w') :
    Meets s w m (fun a w' => Moves loops slots w w' ∧ w'.Fit c ∧ w'.Right told truth ∧ Q a w')
      H :=
  Meets.mono h (fun _ _ h => h) fun e w' h => by
    cases e with
    | settled => exact hH w' h.1 h.2.1 h.2.2.1 h.2.2.2
    | failed e => exact h.1.elim

/-- **A walk over a well-formed document comes to its answers.** -/
theorem meets_document (hn : n.Fits c none) (ht : n.Tidy) (hbound : s.bound = c.data.length + 1)
    (hdec : s.decimals = c.kit.decimals) (hs : Stands c none told k (· ∈ n.slots) w)
    (hp : Poised c told k (some d) n (fun _ => none) w) (hd : d.Whole c.data)
    (hpos : w.cursor.position = 0) (hone : s.buckets.length ≤ 1 → ∀ b ∈ s.buckets, b = 0)
    (hrests : ∀ b ∈ s.buckets, c.tree.Rests (· ∈ n.buckets) b) :
    Meets s w (document n.halting) (fun _ => Settled c told k.truth s.buckets)
      (fun halt w' => halt = .settled ∧ Settled c told k.truth s.buckets w') := by
  have ha : Answers c s none told n := answers hbound hdec n none hn ht
  have hlies := hd.2.1
  -- where the walk is settled, it has come to its answers
  have settled {w₁ w₂ : Walker} (hst : w₁.state.stall = none)
      (hm : Moves (· ∈ n.loopBuckets) (· ∈ n.slots) w₁ w₂) (hfit : w₂.Fit c)
      (hset : s.isSettled w₂.state = true) (hr : w₂.Right told k.truth) :
      Settled c told k.truth s.buckets w₂ :=
    ⟨hfit, hr, hm.stall.trans hst, known_of_isSettled hone (hm.stall.trans hst) hset⟩
  refine Meets.bind (((reading_opening hs.fit hpos hd).sure hs.right).meets
    fun _ hm hfit hset hr => ⟨rfl, settled hs.stall hm hfit hset hr⟩) fun token w₁ h₁ => ?_
  obtain ⟨hm₁, hfit₁, hr₁, ho₁, rfl, hpos₁⟩ := h₁
  have hs₁ := hs.moves hm₁ hfit₁ hr₁
  have hp₁ : Poised c told k (some d) n (fun _ => none) w₁ :=
    hp.keep (fun b hb hk => hm₁.known_of_node hn hs.fit.tree hb hk)
      fun i path _ he => (held_of_slots ho₁.slots i).trans he
  have hlt := hlies.bounds
  refine Meets.bind (((ha.read k d w₁ hs₁ hp₁ hlies hpos₁).and_safe
    (ha.secure.read w₁ d.opening hfit₁ hs₁.stall fun _ => by omega)).meets
    fun _ hm hfit hset hr => ⟨rfl, settled hs₁.stall hm hfit hset hr⟩) fun v w₂ h₂ => ?_
  obtain ⟨hm₂, hfit₂, hr₂, ⟨rfl, hpos₂, hfill⟩, hlt₂, -, -, hloops, hchildren⟩ := h₂
  have hp₂ : Poised c told k (some d) n d.inner w₂ :=
    hp₁.keep (fun b hb hk => hm₂.known_of_node hn hs₁.fit.tree hb hk) fun i path hi he => by
      rw [hfill i path hi, he]
      rfl
  refine Meets.bind (meets_note (Q := fun _ w₃ =>
    w₃ = { w₂ with trail := .wholeRead :: w₂.trail }) rfl) fun _ w₃ h₃ => ?_
  have ho₃ : OnlyReads w₂ w₃ := by
    rw [h₃]
    exact ⟨⟨rfl, rfl⟩, [.wholeRead], rfl, by simp [Event.Blind]⟩
  have hfit₃ : w₃.Fit c := fit_of_cursor hfit₂ ho₃.toSameMarks (by rw [h₃]) (by
    rw [h₃]
    exact hfit₂.inside)
  have hm₃ : Moves (· ∈ n.loopBuckets) (· ∈ n.slots) w₂ w₃ :=
    .of_cursor [.wholeRead] ho₃.state ho₃.slots (by rw [h₃]; rfl) (by simp [Walker.Allows])
  have hs₃ := (hs₁.moves hm₂ hfit₂ hr₂).moves hm₃ hfit₃ (Right.of_onlyReads ho₃ hr₂)
  have hp₃ : Poised c told k (some d) n d.inner w₃ :=
    hp₂.keep (fun b hb hk => hm₃.known_of_node hn hfit₂.tree hb hk)
      fun i path _ he => (held_of_slots ho₃.slots i).trans he
  have known {b : Nat} (hk : w₂.Known b) : w₃.Known b := by rwa [Walker.Known, ho₃.state]
  have hpos₃ : w₃.cursor.position = d.stop := by rw [h₃, hpos₂]
  refine Meets.bind (Q := fun _ w₄ => Settled c told k.truth s.buckets w₄ ∧
    w₄.cursor.position = d.stop) (meets_settles ?_) fun _ w₄ h₄ => ?_
  · refine (Meets.and (ha.finish k d w₃ hs₃ hp₃ hlies hpos₃
      (fun hk l hl => known (hloops hk l hl)) fun hk child hc b hb => known (hchildren hk child hc b hb))
      (ha.secure.finish w₃ d.opening (d.value c.data) hfit₃ hs₃.stall (by rw [hpos₃, ← hpos₂]; exact hlt₂)
        (fun hk l hl => known (hloops hk l hl))
        fun hk child hc b hb => known (hchildren hk child hc b hb))).mono
      (fun _ w₄ h₄ => ?_) fun e w₄ h₄ => ?_
    · obtain ⟨⟨hm₄, hfit₄, hr₄, -⟩, -, -, hknown, hsame⟩ := h₄
      exact ⟨⟨hfit₄, hr₄, hm₄.stall.trans hs₃.stall, fun b hb =>
        State.known_of_rests hfit₄.good hknown (hfit₄.tree ▸ hrests b hb)⟩, hsame.trans hpos₃⟩
    · cases e with
      | failed e => exact h₄.1.1.elim
      | settled =>
        obtain ⟨⟨hm₄, hfit₄, hset, hr₄⟩, -, -, -, hsame⟩ := h₄
        exact ⟨settled hs₃.stall hm₄ hfit₄ hset hr₄, hsame.trans hpos₃⟩
  · obtain ⟨hset₄, hpos₄⟩ := h₄
    have close : Reading c s (fun _ => False) (fun _ => False) w₄ closing fun _ _ => True :=
      reading_closing hset₄.fit hpos₄ hd
    refine Meets.mono close (fun _ w₅ h₅ => ?_) fun e _ h => ?_
    · obtain ⟨hm₅, hfit₅, ho₅, -⟩ := h₅
      exact ⟨hfit₅, Right.of_onlyReads ho₅ hset₄.right, hm₅.stall.trans hset₄.stall, fun b hb => by
        rw [Walker.Known, ho₅.state]
        exact hset₄.known b hb⟩
    · cases e with
      | settled => exact h.2.2.2.elim
      | failed e => exact h.1.elim

end Walk

end Sift
