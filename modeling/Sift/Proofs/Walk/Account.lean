import Sift.Proofs.Walk.Polling

/-!
# The account of a walk

Over a document a `Pass` comes to what the `Walk` over it comes to (`Pass.outcome_document`). Once it
is decided nothing more is done, but for one look at what follows the document if that has been read
whole by then (`Pass.accounted_document`).
-/

namespace Sift

open Resolution

variable {s : Setting} {w : Walker}

/-! ## 1. Accounts -/

/-- The ground of a walk until the document has been read. -/
def Ground.reading (s : Setting) (t : Tree) : Ground where
  setting := s
  tree := t
  told l := ∀ e ∈ l, e.Plain
  plain _ _ he hl := List.forall_mem_cons.mpr ⟨he, hl⟩

/-- The ground of a walk once the document has been read. -/
def Ground.whole (s : Setting) (t : Tree) : Ground where
  setting := s
  tree := t
  told l := ∃ later earlier, l = later ++ .wholeRead :: earlier ∧ (∀ e ∈ later, e.Plain) ∧
    ∀ e ∈ earlier, e.Plain
  plain := by
    rintro e _ he ⟨later, earlier, rfl, h, h'⟩
    exact ⟨e :: later, earlier, rfl, List.forall_mem_cons.mpr ⟨he, h⟩, h'⟩

/-- **What the account of a whole walk looks like.** If the walk is decided before the document has
    been read whole, that is the end of it, and if later, there is one look at what follows. -/
inductive Accounted : List Event → Prop
  | undecided {l : List Event} (h : ∀ b v, .marked b v true ∉ l) : Accounted l
  | reading {b : Nat} {v : Bool} {l : List Event} (h : ∀ e ∈ l, e.Plain) :
      Accounted (.marked b v true :: l)
  | whole {b : Nat} {v : Bool} {later earlier : List Event} (h : ∀ e ∈ later, e.Plain)
      (h' : ∀ e ∈ earlier, e.Plain) :
      Accounted (.stepped :: .marked b v true :: (later ++ .wholeRead :: earlier))

theorem not_plain_decided {b : Nat} {v : Bool} : ¬ (Event.marked b v true).Plain := Bool.noConfusion

theorem not_decided_of_told {later earlier : List Event} (h : ∀ e ∈ later, e.Plain)
    (h' : ∀ e ∈ earlier, e.Plain) (b : Nat) (v : Bool) :
    .marked b v true ∉ later ++ .wholeRead :: earlier := fun hm => by
  rcases List.mem_append.mp hm with hm | hm
  · exact not_plain_decided (h _ hm)
  · rcases List.mem_cons.mp hm with hm | hm
    · cases hm
    · exact not_plain_decided (h' _ hm)

/-- The first event of two equal accounts, when only one event of the one can be in the other. -/
theorem eq_nil_of_cons_eq_append {e e' : Event} {l later earlier : List Event}
    (h : e :: l = later ++ e' :: earlier) (hno : e' ∉ l) : later = [] ∧ e = e' ∧ l = earlier := by
  cases later with
  | nil => exact ⟨rfl, List.cons.inj h⟩
  | cons _ later =>
    obtain ⟨-, rfl⟩ := List.cons.inj h
    exact absurd (List.mem_append_right _ List.mem_cons_self) hno

/-- **What comes after a walk is decided.** -/
theorem Accounted.stops {b : Nat} {v : Bool} {later earlier : List Event}
    (h : Accounted (later ++ .marked b v true :: earlier)) :
    (.wholeRead ∈ earlier → later = [.stepped]) ∧ (.wholeRead ∉ earlier → later = []) := by
  generalize hl : later ++ Event.marked b v true :: earlier = l at h
  cases h with
  | undecided h => exact absurd (hl ▸ List.mem_append_right _ List.mem_cons_self) (h b v)
  | reading h =>
    obtain ⟨rfl, -, rfl⟩ := eq_nil_of_cons_eq_append hl.symm fun hm => not_plain_decided (h _ hm)
    exact ⟨fun hm => (h _ hm).elim, fun _ => rfl⟩
  | whole h h' =>
    cases later with
    | nil => cases hl
    | cons _ later =>
      obtain ⟨rfl, hrest⟩ := List.cons.inj hl
      obtain ⟨rfl, -, rfl⟩ := eq_nil_of_cons_eq_append hrest.symm (not_decided_of_told h h' b v)
      exact ⟨fun _ => rfl, fun hm =>
        absurd (List.mem_append_right _ List.mem_cons_self) hm⟩

theorem accounted_of_plain {l : List Event} (h : ∀ e ∈ l, e.Plain) : Accounted l :=
  .undecided fun _ _ hm => not_plain_decided (h _ hm)

theorem accounted_of_whole {t : Tree} {l : List Event} (h : (Ground.whole s t).told l) :
    Accounted l := by
  obtain ⟨later, earlier, rfl, hl, he⟩ := h
  exact .undecided (not_decided_of_told hl he)

/-! ## 2. Documents -/

/-- The look at what follows a document is one step. -/
theorem both_closing {t : Tree} (hw : w.At (.whole s t) none ∨ w.Over (.whole s t) none) :
    Both s w Walk.closing Walk.closing (fun _ _ w₁ => Accounted w₁.trail) (fun _ _ => False)
      fun w₁ => Accounted w₁.trail := by
  have hstep {w' : Walker} (h : w.Stepped w') : Accounted w'.trail := by
    obtain ⟨cursor, rfl⟩ := h
    rcases hw with hw | hw
    · exact accounted_of_whole ((Ground.whole s t).plain _ _ trivial hw.told)
    · obtain ⟨b, v, rest, ht, later, earlier, rfl, hl, he⟩ := hw.told
      show Accounted (.stepped :: w.trail)
      rw [ht]
      exact .whole hl he
  refine Both.next (both_step.mono (fun _ _ _ h => h) (fun _ _ h => h) fun _ h => hstep h)
    fun token _ w₁ hq => ?_
  obtain ⟨rfl, h⟩ := hq
  split
  · exact both_pure (hstep h)
  · exact both_fail (hstep h)

/-- **Over a document a walk that asks comes to what the one that halts comes to.** -/
theorem both_document {c : Course} {n : Node} (hv : c.tree.Valid) (hn : n.Fits c none)
    (hw : w.Open (.reading s c.tree) none) :
    Both s w (Walk.document n.halting) (Pass.document n.handler) (fun _ _ w₁ => Accounted w₁.trail)
      (fun _ w₁ => Accounted w₁.trail) fun w₁ => Accounted w₁.trail := by
  have hreading := Node.polls (g := .reading s c.tree) hv rfl n none hn
  have hwhole := Node.polls (g := .whole s c.tree) hv rfl n none hn
  refine Both.next ((Calm.opening.polls w hw).mono (fun _ _ _ h => h) (fun _ _ h => h.1)
    fun w₁ h => accounted_of_plain h) fun token _ w₁ hq => ?_
  obtain ⟨rfl, hw₁⟩ := hq
  refine Both.bind ((hreading.read token w₁ hw₁).mono (fun _ _ _ h => h) (fun _ _ h => h)
    fun w₂ h => accounted_of_plain h) (fun v r w₂ hq => ?_) fun r w₂ he => ?_
  · obtain ⟨rfl, hw₂⟩ := hq
    refine Both.next (Q := fun _ _ w₃ => w₃.Open (.whole s c.tree) none)
      ⟨(), rfl, ⟨hw₂.1.tree, hw₂.1.stall, [], w₂.trail, rfl, by simp, hw₂.1.told⟩, hw₂.2⟩
      fun _ _ w₃ hw₃ => ?_
    refine Both.next (((hwhole.finish token v).settles hw₃).mono (fun _ _ _ h => h) (fun _ _ h => h)
      fun w₁ h => accounted_of_whole h) fun early _ w₄ hw₄ => ?_
    refine (both_closing (t := c.tree) ?_).mono (fun _ _ _ h => h) (fun _ _ h => h.elim)
      fun _ h => h
    cases early with
    | true => exact .inr hw₄
    | false => exact .inl hw₄.1
  · obtain ⟨rfl, hw₂⟩ := he
    obtain ⟨b, v, rest, ht, hrest⟩ := hw₂.told
    exact ⟨(), rfl, by rw [ht]; exact .reading hrest⟩

namespace Pass

variable {c : Course} {n : Node} (hv : c.tree.Valid) (hn : n.Fits c none)
  (hw : w.Open (.reading s c.tree) none)
include hv hn hw

theorem outcome_document : (document n.handler).outcome s w =
    match (Walk.document n.halting).outcome s w with
    | (.ok _, w₁) | (.error .settled, w₁) => (.ok (), w₁)
    | (.error (.failed e), w₁) => (.error e, w₁) := by
  have hboth := both_document hv hn hw
  unfold Both at hboth
  split at hboth
  · next heq =>
    obtain ⟨_, ho, -⟩ := hboth
    rw [ho, heq]
  · next heq =>
    obtain ⟨_, ho, -⟩ := hboth
    rw [ho, heq]
  · next heq => rw [hboth.1, heq]

/-- **Once a walk is decided nothing more is done**, but for one look at what follows. -/
theorem accounted_document : Accounted ((document n.handler).outcome s w).2.trail := by
  have hboth := both_document hv hn hw
  unfold Both at hboth
  split at hboth
  · obtain ⟨_, ho, h⟩ := hboth
    rwa [ho]
  · obtain ⟨_, ho, h⟩ := hboth
    rwa [ho]
  · rw [hboth.1]
    exact hboth.2

end Pass

end Sift
