import Mathlib
import Sift.Proofs.Resolution.Evidence

/-!
# Loops over a part of the tree

While a loop runs, its barrier is the stall: rounds mark nodes below it and forget them again, and
loops further inside may run in them. `Goes` tells what may go on while the stall is the same, and
`Reached` which states there are at all.

* `Goes.steady`: nothing that goes on changes what lies outside of the stall;
* `rise_congr`: going up from a node does not depend on what lies below it;
* `loop_is_mark`: so a loop that is over has left nothing behind but the mark of its barrier.
-/

namespace Sift.Resolution.State

/-! ## 1. What goes on -/

/-- A loop may be gone into at this barrier. -/
structure MayLoop (s : State) (c : Nat) : Prop where
  lt : c < s.tree.size
  kind : (s.tree.node c).kind = .barrier
  unknown : s.get c = .unknown
  within : s.Within c

/-- The loop of a barrier is left: what lies below is forgotten, and the stall is the one from before. -/
def leave (s : State) (c : Nat) (stall : Option Nat) : State := (s.resetBelow c).withStall stall

/-- **What may go on while the stall is the same**: unknown nodes that it bounds are marked, what lies
    below it is forgotten, and loops of barriers that it bounds are gone through whole. -/
inductive Goes : State → State → Prop
  | start (s : State) : Goes s s
  | mark {s m m' : State} {j : Nat} {v : Bool} (h : Goes s m) (hj : j < m.tree.size)
      (hw : m.Within j) (hm : m.mark j v = .ok m') : Goes s m'
  | reset {s m : State} {c : Nat} (h : Goes s m) (hc : m.stall = some c) : Goes s (m.resetBelow c)
  | loop {s m n m' : State} {c : Nat} {v : Bool} (h : Goes s m) (hc : m.MayLoop c)
      (hn : Goes (m.withStall (some c)) n) (hm : (n.leave c m.stall).mark c v = .ok m') : Goes s m'

/-- A state that there is at some moment, in a loop or outside of all. -/
inductive Reached (t : Tree) : State → Prop
  | fresh : Reached t (.fresh t)
  | goes {s s' : State} (h : Reached t s) (hs : Goes s s') : Reached t s'
  | enter {s : State} {c : Nat} (h : Reached t s) (hc : s.MayLoop c) :
      Reached t (s.withStall (some c))

/-- A state that there is, in any loop inside or in none, from when the loop of `c` is gone into in
    `s` until its barrier is marked. -/
inductive Amid : Nat → State → State → Prop
  | here {c : Nat} {s n : State} (h : Goes (s.withStall (some c)) n) : Amid c s n
  | inside {c d : Nat} {s m x : State} (h : Goes (s.withStall (some c)) m) (hd : m.MayLoop d)
      (hx : Amid d m x) : Amid c s x
  | left {c : Nat} {s n : State} (h : Goes (s.withStall (some c)) n) : Amid c s (n.leave c s.stall)

/-! ## 2. What a stall keeps -/

variable {s s' s₁ s₂ m n x : State} {c j : Nat} {v : Bool} {t : Tree}

/-- A good state, of whose stall nothing is known. -/
structure Steady (s : State) : Prop where
  good : Good (fun _ => True) s
  stalled : ∀ c, s.stall = some c → s.get c = .unknown

/-- Nothing has changed but what the stall bounds. -/
structure Bounded (s s' : State) : Prop where
  tree : s'.tree = s.tree
  stall : s'.stall = s.stall
  outside : ∀ j, ¬ s.Within j → s'.get j = s.get j

theorem Bounded.refl (s : State) : Bounded s s := ⟨rfl, rfl, fun _ _ => rfl⟩

theorem Bounded.trans {s'' : State} (h : Bounded s s') (h' : Bounded s' s'') : Bounded s s'' where
  tree := h'.tree.trans h.tree
  stall := h'.stall.trans h.stall
  outside j hj := by
    have hj' : ¬ s'.Within j := by
      rw [Within, h.stall, h.tree]
      exact hj
    rw [h'.outside j hj', h.outside j hj]

theorem bounded_of_changes (h : Changes s s') : Bounded s s' := ⟨h.tree, h.stall, h.outside⟩

theorem bounded_settle (hv : s.tree.Valid) (hw : s.Within j) : Bounded s (s.settle j v) :=
  ⟨rfl, rfl, fun _ hi => get_settle_of_not_below
    (Bool.eq_false_iff.mpr fun hb => hi (within_of_below hv hw hb)) fun e => hi (e ▸ hw)⟩

/-- Going up stops at the stall. -/
theorem bounded_rise (child : Nat) : ∀ {s : State}, s.tree.Valid → s.Within child →
    Bounded s (s.rise child) := by
  induction child using Nat.strongRecOn with
  | ind child ih =>
    intro s hv hw
    rw [rise]
    split
    · next hup =>
      split
      · exact .refl s
      · next hgo =>
        have hparent := within_parent hv hw fun hstop => hgo (.inl hstop)
        split
        · exact (bounded_settle hv hparent).trans (ih _ hup hv hparent)
        · exact .refl s
    · exact .refl s

/-- **A mark below the stall** changes only what the stall bounds, in whatever state. -/
theorem bounded_mark (hv : s.tree.Valid) (hw : s.Within j) (hm : s.mark j v = .ok s') :
    Bounded s s' := by
  unfold State.mark at hm
  split at hm
  · cases hm
    exact (bounded_settle hv hw).trans (bounded_rise j hv hw)
  · cases hm

/-- A stall does not bound its own node. -/
theorem not_within_self (h : s.stall = some c) : ¬ s.Within c := fun hw =>
  absurd (Tree.isBelow_iff.mp (hw c h)).1 (Nat.lt_irrefl c)

theorem Steady.of_bounded (h : Steady s) (hb : Bounded s s') (hg : Good (fun _ => True) s') :
    Steady s' where
  good := hg
  stalled c hc := by
    rw [hb.stall] at hc
    rw [hb.outside c (not_within_self hc)]
    exact h.stalled c hc

theorem Steady.enter (h : Steady s) (hc : s.MayLoop c) : Steady (s.withStall (some c)) where
  good := good_withStall h.good fun _ hi => Option.some.inj hi ▸ hc.kind
  stalled _ hi := Option.some.inj hi ▸ hc.unknown

theorem Steady.reset (h : Steady s) (hc : s.stall = some c) :
    Steady (s.resetBelow c) ∧ Bounded s (s.resetBelow c) := by
  have hb : Bounded s (s.resetBelow c) := by
    refine ⟨rfl, rfl, fun j hj => get_resetBelow_of_not_below (Bool.eq_false_iff.mpr fun hcj => ?_)⟩
    exact hj fun i hi => by
      rw [hc] at hi
      exact Option.some.inj hi ▸ hcj
  exact ⟨h.of_bounded hb (good_resetBelow h.good (h.stalled c hc)), hb⟩

theorem Steady.mark (h : Steady s) (hj : j < s.tree.size) (hw : s.Within j)
    (hm : s.mark j v = .ok s') : Steady s' ∧ Bounded s s' := by
  have hu : s.get j = .unknown := by
    unfold State.mark at hm
    split at hm
    · next hu => exact isUnknown_iff.mp hu
    · cases hm
  obtain ⟨s'', hs, hg, hch, -⟩ := mark_spec h.good hj hw hu (fun _ => trivial) v
  rw [hm] at hs
  cases hs
  exact ⟨h.of_bounded (bounded_of_changes hch) hg, bounded_of_changes hch⟩

/-- What lies outside of a barrier when its loop is left is what it was, and nothing is known of what
    lies below. -/
structure Left (m : State) (c : Nat) (e : State) : Prop where
  steady : Steady e
  tree : e.tree = m.tree
  stall : e.stall = m.stall
  outside : ∀ j, m.tree.isBelow c j = false → e.get j = m.get j
  below : ∀ j, m.tree.isBelow c j = true → e.get j = .unknown

/-- What the stall at a barrier bounds is what lies below the barrier. -/
theorem Bounded.get_outside (h : Bounded (m.withStall (some c)) n)
    (hj : m.tree.isBelow c j = false) : n.get j = m.get j := by
  refine h.outside j fun hw => ?_
  have hcj : m.tree.isBelow c j = true := hw c rfl
  rw [hj] at hcj
  cases hcj

theorem Steady.leave (h : Steady m) (hc : m.MayLoop c) (hn : Steady n)
    (hb : Bounded (m.withStall (some c)) n) : Left m c (n.leave c m.stall) := by
  have htree : n.tree = m.tree := hb.tree
  obtain ⟨hreset, hbreset⟩ := hn.reset hb.stall
  have hout := fun j => (hb.trans hbreset).get_outside (j := j)
  refine ⟨⟨good_withStall hreset.good fun i hi => ?_, fun i hi => ?_⟩, htree, rfl, hout,
    fun j hj => get_resetBelow_of_below (htree ▸ hj)⟩
  · exact htree ▸ h.good.stall i hi
  · -- the stall from before lies above `c`
    have hic := Tree.isBelow_iff.mp (hc.within i hi)
    refine (hout i (Bool.eq_false_iff.mpr fun hci => ?_)).trans (h.stalled i hi)
    have := Tree.isBelow_iff.mp hci
    omega

theorem Left.within (h : Left m c s') : s'.Within j ↔ m.Within j := by
  rw [Within, Within, h.stall, h.tree]

/-- **Whatever goes on** keeps states steady and changes only what the stall bounds. -/
theorem Goes.steady (h : Goes s m) (hs : Steady s) : Steady m ∧ Bounded s m := by
  induction h with
  | start s => exact ⟨hs, .refl s⟩
  | mark _ hj hw hm ih =>
    obtain ⟨hsteady, hb⟩ := ih hs
    obtain ⟨hsteady', hb'⟩ := hsteady.mark hj hw hm
    exact ⟨hsteady', hb.trans hb'⟩
  | reset _ hc ih =>
    obtain ⟨hsteady, hb⟩ := ih hs
    obtain ⟨hsteady', hb'⟩ := hsteady.reset hc
    exact ⟨hsteady', hb.trans hb'⟩
  | @loop s m n m' c v _ hc _ hm ih ihn =>
    obtain ⟨hsteady, hb⟩ := ih hs
    obtain ⟨hinner, hbinner⟩ := ihn (hsteady.enter hc)
    have hleft := hsteady.leave hc hinner hbinner
    obtain ⟨hsteady', hb'⟩ := hleft.steady.mark (hleft.tree ▸ hc.lt) (hleft.within.mpr hc.within) hm
    refine ⟨hsteady', hb.trans ⟨hb'.tree.trans hleft.tree, hb'.stall.trans hleft.stall,
      fun j hj => ?_⟩⟩
    rw [hb'.outside j (mt hleft.within.mp hj)]
    refine hleft.outside j (Bool.eq_false_iff.mpr fun hcj => hj ?_)
    exact within_of_below hsteady.good.valid hc.within hcj

theorem Reached.steady (h : Reached t s) (hv : t.Valid) : Steady s ∧ s.tree = t := by
  induction h with
  | fresh =>
    refine ⟨⟨good_fresh hv, fun c hc => ?_⟩, rfl⟩
    cases hc
  | goes _ hs ih =>
    obtain ⟨hsteady, hb⟩ := hs.steady ih.1
    exact ⟨hsteady, hb.tree.trans ih.2⟩
  | enter _ hc ih => exact ⟨ih.1.enter hc, ih.2⟩

/-- **No moment of a loop** differs outside of it from when it was gone into. -/
theorem Amid.outside (h : Amid c s x) : Steady s → s.MayLoop c → ∀ j, s.tree.isBelow c j = false →
    x.get j = s.get j := by
  induction h with
  | here hgo =>
    intro hs hc j hj
    exact (hgo.steady (hs.enter hc)).2.get_outside hj
  | @inside c d s m x hgo hd _ ih =>
    intro hs hc j hj
    obtain ⟨hm, hb⟩ := hgo.steady (hs.enter hc)
    have htree : m.tree = s.tree := hb.tree
    rw [ih hm hd j, hb.get_outside hj]
    refine Bool.eq_false_iff.mpr fun hdj => ?_
    rw [← htree, hm.good.valid.below_trans (hd.within c hb.stall) hdj] at hj
    cases hj
  | left hgo =>
    intro hs hc j hj
    obtain ⟨hn, hb⟩ := hgo.steady (hs.enter hc)
    exact (hs.leave hc hn hb).outside j hj

/-! ## 3. What lies below a node and what lies above -/

/-- Two states of one tree under one stall that differ at most below `c`. -/
structure AlikeOutside (c : Nat) (s₁ s₂ : State) : Prop where
  tree : s₂.tree = s₁.tree
  stall : s₂.stall = s₁.stall
  size : s₂.marks.size = s₁.marks.size
  get : ∀ j, s₁.tree.isBelow c j = false → s₂.get j = s₁.get j

theorem AlikeOutside.settle (h : AlikeOutside c s₁ s₂) (i : Nat) (v : Bool) :
    AlikeOutside c (s₁.settle i v) (s₂.settle i v) where
  tree := h.tree
  stall := h.stall
  size := by rw [State.settle, State.settle, size_update, size_update, h.size]
  get j hj := by
    have hget := h.get j hj
    by_cases hji : j = i
    · subst hji
      rcases Nat.lt_or_ge j s₁.marks.size with hlt | hge
      · rw [get_settle_self hlt, get_settle_self (h.size ▸ hlt)]
      · rw [State.settle, State.settle, get_update_of_le hge, get_update_of_le (h.size ▸ hge)]
    · rw [get_settle_of_ne hji, get_settle_of_ne hji, hget, h.tree, h.size]

/-- **Going up from a node does not depend on what lies below it.** -/
theorem rise_congr (child : Nat) : ∀ {s₁ s₂ : State}, s₁.tree.Valid → AlikeOutside c s₁ s₂ →
    child = c ∨ s₁.tree.isBelow child c = true → child < s₁.tree.size →
    AlikeOutside c (s₁.rise child) (s₂.rise child) := by
  induction child using Nat.strongRecOn with
  | ind child ih =>
    intro s₁ s₂ hv h hchild hlt
    have hparent : (s₂.tree.node child).parent = (s₁.tree.node child).parent := by rw [h.tree]
    unfold State.rise
    simp only [hparent, h.stall]
    split
    · next hup =>
      -- the parent lies above `c`, and its children are not below
      have hp : s₁.tree.isBelow (s₁.tree.node child).parent c = true := by
        have := hv.below_parent (by omega) hlt
        rcases hchild with rfl | hchild
        · exact this
        · exact hv.below_trans this hchild
      have hout (k : Nat) (hk : k = (s₁.tree.node child).parent ∨
          (s₁.tree.node k).parent = (s₁.tree.node child).parent) : s₁.tree.isBelow c k = false := by
        refine Bool.eq_false_iff.mpr fun hck => ?_
        have habove := Tree.isBelow_iff.mp hp
        rcases hk with rfl | hk
        · have := Tree.isBelow_iff.mp hck
          omega
        · have := hv.parent_of_below hck
          rw [hk, Tree.isBelow_iff] at this
          omega
      have hcombine : s₂.combine? (s₁.tree.node child).parent =
          s₁.combine? (s₁.tree.node child).parent := by
        refine combine?_congr hv h.tree (by omega) fun k hk h0 => h.get k (hout k (.inr ?_))
        exact (hv.child_below (by omega) hk h0).2.2.parent
      rw [h.get _ (hout _ (.inl rfl)), hcombine]
      split
      · exact h
      · split
        · exact ih _ hup hv (h.settle _ _) (.inr hp) (Nat.lt_trans hup hlt)
        · exact h
    · exact h

/-- **What a node is marked with does not depend on what lies below it.** -/
theorem AlikeOutside.mark (h : AlikeOutside c s₁ s₂) (hv : s₁.tree.Valid) (hc : c < s₁.tree.size)
    (hm : s₂.mark c v = .ok s') : ∃ d, s₁.mark c v = .ok d ∧ AlikeOutside c d s' := by
  have hcc : s₁.tree.isBelow c c = false :=
    Bool.eq_false_iff.mpr fun hb => absurd (Tree.isBelow_iff.mp hb).1 (Nat.lt_irrefl c)
  unfold State.mark at hm ⊢
  split at hm
  · next hu =>
    cases hm
    have hu₁ : s₁.get c = .unknown := (h.get c hcc).symm.trans (isUnknown_iff.mp hu)
    rw [if_pos (isUnknown_iff.mpr hu₁)]
    exact ⟨_, rfl, rise_congr c hv (h.settle c v) (.inl rfl) hc⟩
  · cases hm

/-! ## 4. A loop that is over -/

/-- **A loop that is over has left nothing behind but the mark of its barrier.** Wherever and whenever
    it is gone into, and whatever goes on in it:

    * at no moment before its barrier is marked has anything changed outside of what lies below;
    * the barrier can be marked then, and the stall is the one from before;
    * what lies outside is as if the barrier had been marked at once, and what lies below is
      resolved. -/
theorem loop_is_mark {nodes : Array TreeNode} (ht : Tree.ofNodes nodes = .ok t) (hs : Reached t s)
    (hc : s.MayLoop c) :
    (∀ x, Amid c s x → ∀ j, t.isBelow c j = false → x.get j = s.get j) ∧
      ∀ n, Goes (s.withStall (some c)) n → ∀ v, ∃ s' d,
        (n.leave c s.stall).mark c v = .ok s' ∧ s.mark c v = .ok d ∧ s'.stall = s.stall ∧
        (∀ j, t.isBelow c j = false → s'.get j = d.get j) ∧
        ∀ j, t.isBelow c j = true → s'.get j = .resolved := by
  have hvalid := (Tree.valid_of_ofNodes ht).2
  obtain ⟨hsteady, rfl⟩ := hs.steady hvalid
  refine ⟨fun x hx => hx.outside hsteady hc, fun n hn v => ?_⟩
  obtain ⟨hinner, hb⟩ := hn.steady (hsteady.enter hc)
  have hleft := hsteady.leave hc hinner hb
  have hcc : s.tree.isBelow c c = false := Bool.eq_false_iff.mpr fun h =>
    absurd (Tree.isBelow_iff.mp h).1 (Nat.lt_irrefl c)
  have hu : (n.leave c s.stall).get c = .unknown := (hleft.outside c hcc).trans hc.unknown
  obtain ⟨s', hs', hgood, hch, -⟩ := mark_spec hleft.steady.good (hleft.tree ▸ hc.lt)
    (hleft.within.mpr hc.within) hu (fun _ => trivial) v
  have hd : s.mark c v = .ok ((s.settle c v).rise c) := by
    rw [mark, if_pos (isUnknown_iff.mpr hc.unknown)]
  have he : s' = ((n.leave c s.stall).settle c v).rise c := by
    rw [mark, if_pos (isUnknown_iff.mpr hu)] at hs'
    exact (Except.ok.inj hs').symm
  refine ⟨s', _, hs', hd, hch.stall.trans hleft.stall, fun j hj => ?_, fun j hj => ?_⟩
  · have halike : AlikeOutside c s (n.leave c s.stall) :=
      ⟨hleft.tree, hleft.stall, by rw [hleft.steady.good.size, hleft.tree, hsteady.good.size],
        hleft.outside⟩
    have hrise : AlikeOutside c ((s.settle c v).rise c) (((n.leave c s.stall).settle c v).rise c) :=
      rise_congr c hvalid (halike.settle c v) (.inl rfl) hc.lt
    rw [he]
    exact hrise.get j (by rw [tree_rise]; exact hj)
  · have hne : j ≠ c := fun e => by
      rw [e, hcc] at hj
      cases hj
    have hjlt : j < (n.leave c s.stall).marks.size := by
      rw [hleft.steady.good.size, hleft.tree]
      exact hvalid.below_lt_size hj
    have hsettled : ((n.leave c s.stall).settle c v).get j = .resolved := by
      rw [get_settle_of_ne hne, if_pos]
      simp [hleft.tree, hj, hleft.below j hj, hjlt]
    rw [he, get_rise_of_known c (by rw [hsettled]; exact Mark.noConfusion), hsettled]

/-- A loop over one leaf, and another leaf. -/
def loopAndLeaf : Tree :=
  ⟨#[⟨0, .and, 1, 3⟩, ⟨0, .barrier, 2, 0⟩, ⟨1, .leaf, 0, 0⟩, ⟨0, .leaf, 0, 0⟩], #[4, 3, 3, 4]⟩

theorem ofNodes_loopAndLeaf : Tree.ofNodes loopAndLeaf.nodes = .ok loopAndLeaf := by cbv

theorem mayLoop_loopAndLeaf : (fresh loopAndLeaf).MayLoop 1 :=
  ⟨by decide, rfl, get_fresh 1, fun i hi => by cases hi⟩

/-- The loop while its leaf is known and nothing else is. -/
def round (v : Bool) : State :=
  ⟨loopAndLeaf, #[.unknown, .unknown, .value v, .unknown], some 1⟩

/-- There may be two rounds, with the leaf false in the first. -/
theorem goes_round : Goes ((fresh loopAndLeaf).withStall (some 1)) (round true) := by
  have hw (s : State) (ht : s.tree = loopAndLeaf) (hs : s.stall = some 1) : s.Within 2 :=
    fun i hi => by
      rw [hs] at hi
      cases hi
      rw [ht]
      rfl
  have hfirst : ((fresh loopAndLeaf).withStall (some 1)).mark 2 false = .ok (round false) := by
    cbv
  have hsecond : ((round false).resetBelow 1).mark 2 true = .ok (round true) := by cbv
  have first : Goes ((fresh loopAndLeaf).withStall (some 1)) (round false) :=
    .mark (.start _) (by decide) (hw _ rfl rfl) hfirst
  exact .mark (.reset first rfl) (by decide) (hw _ rfl rfl) hsecond

/-- After those rounds the outer node and the leaf of the loop are as if there had been none. -/
theorem loop_is_mark_loopAndLeaf : ∃ s' d, ((round true).leave 1 none).mark 1 true = .ok s' ∧
    (fresh loopAndLeaf).mark 1 true = .ok d ∧ s'.get 0 = d.get 0 ∧ s'.get 2 = .resolved := by
  obtain ⟨-, hover⟩ := loop_is_mark ofNodes_loopAndLeaf .fresh mayLoop_loopAndLeaf
  obtain ⟨s', d, hs', hd, -, hout, hin⟩ := hover _ goes_round true
  exact ⟨s', d, hs', hd, hout 0 rfl, hin 2 rfl⟩

end Sift.Resolution.State
