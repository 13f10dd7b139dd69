import Sift.Resolution.State
import Sift.Proofs.Resolution.Tree

/-!
# What marking keeps

`State.Good` says what a state is like at every moment of a match: nothing below a settled node is
unknown, nothing is `resolved` except below a settled node, and every node whose children determine
it is settled. `good_mark` and `good_resetBelow` say that the operations keep this, and
`mark_changes` what marking a node changes: nothing that is known, and nothing outside of what the
stall bounds.
-/

namespace Sift.Resolution.State

variable {s s' : State} {i j : Nat} {b : Bool}

/-! ## 1. Marks after an operation -/

theorem get_update {f : Nat → Mark → Mark} (h : j < s.marks.size) :
    (s.update f).get j = f j (s.get j) := by
  simp [update, get, h]

theorem get_update_of_le {f : Nat → Mark → Mark} (h : s.marks.size ≤ j) :
    (s.update f).get j = .unknown := by
  simp [update, get, Nat.not_lt.mpr h]

theorem get_of_size_le (h : s.marks.size ≤ j) : s.get j = .unknown := by
  simp [get, Array.getElem?_eq_none h]

theorem lt_size_of_known (h : s.get j ≠ .unknown) : j < s.marks.size := by
  rcases Nat.lt_or_ge j s.marks.size with hj | hj
  · exact hj
  · exact absurd (get_of_size_le hj) h

@[simp] theorem size_update {f : Nat → Mark → Mark} : (s.update f).marks.size = s.marks.size := by
  simp [update]

@[simp] theorem tree_update {f : Nat → Mark → Mark} : (s.update f).tree = s.tree := rfl

@[simp] theorem stall_update {f : Nat → Mark → Mark} : (s.update f).stall = s.stall := rfl

theorem get_settle_self (h : i < s.marks.size) : (s.settle i b).get i = .value b := by
  rw [settle, get_update h, if_pos rfl]

theorem get_settle_of_ne (h : j ≠ i) :
    (s.settle i b).get j =
      if s.tree.isBelow i j && s.get j == .unknown && decide (j < s.marks.size) then .resolved
      else s.get j := by
  rcases Nat.lt_or_ge j s.marks.size with hj | hj
  · rw [settle, get_update hj, if_neg h]
    simp [hj]
  · rw [settle, get_update_of_le hj, get_of_size_le hj]
    simp [Nat.not_lt.mpr hj]

theorem get_settle_of_known (h : s.get j ≠ .unknown) (hi : j ≠ i) :
    (s.settle i b).get j = s.get j := by
  rw [get_settle_of_ne hi, if_neg]
  simp [h]

theorem get_settle_of_not_below (h : s.tree.isBelow i j = false) (hi : j ≠ i) :
    (s.settle i b).get j = s.get j := by
  rw [get_settle_of_ne hi, if_neg]
  simp [h]

theorem get_resetBelow_of_below (h : s.tree.isBelow i j = true) :
    (s.resetBelow i).get j = .unknown := by
  rcases Nat.lt_or_ge j s.marks.size with hj | hj
  · rw [resetBelow, get_update hj, if_pos h]
  · rw [resetBelow, get_update_of_le hj]

theorem marks_resetBelow (h : s.tree.isBelow i j = true) (hj : j < s.marks.size) :
    (s.resetBelow i).marks[j]? = some .unknown := by
  simp [resetBelow, update, h, hj]

theorem get_resetBelow_of_not_below (h : s.tree.isBelow i j = false) :
    (s.resetBelow i).get j = s.get j := by
  rcases Nat.lt_or_ge j s.marks.size with hj | hj
  · rw [resetBelow, get_update hj, if_neg (by simp [h])]
  · rw [resetBelow, get_update_of_le hj, get_of_size_le hj]

@[simp] theorem get_withStall {stall : Option Nat} : (s.withStall stall).get j = s.get j := rfl

theorem isUnknown_iff : s.isUnknown i = true ↔ s.get i = .unknown := by
  simp [isUnknown]

theorem isResolved_iff : s.isResolved i = true ↔ s.get i ≠ .unknown := by
  simp [isResolved, isUnknown]

theorem isTrue_iff : s.isTrue i = true ↔ s.get i = .value true := by
  simp [isTrue]

/-- Going up keeps what settling a node keeps. -/
theorem rise_keeps {P : State → Prop} (h : ∀ s j v, P s → P (s.settle j v)) (child : Nat) :
    ∀ {s : State}, P s → P (s.rise child) := by
  induction child using Nat.strongRecOn with
  | ind child ih =>
    intro s hs
    rw [rise]
    split
    · next hup =>
      split
      · exact hs
      · split
        · exact ih _ hup (h s _ _ hs)
        · exact hs
    · exact hs

theorem tree_rise (child : Nat) : (s.rise child).tree = s.tree :=
  rise_keeps (P := fun s' => s'.tree = s.tree) (fun _ _ _ h => h) child rfl

theorem size_rise (child : Nat) : (s.rise child).marks.size = s.marks.size :=
  rise_keeps (P := fun s' => s'.marks.size = s.marks.size) (fun _ _ _ h => size_update.trans h)
    child rfl

theorem stall_rise (child : Nat) : (s.rise child).stall = s.stall :=
  rise_keeps (P := fun s' => s'.stall = s.stall) (fun _ _ _ h => h) child rfl

/-- Marking changes neither the tree nor the number of marks. -/
theorem shape_mark {i : Nat} (h : s.mark i b = .ok s') :
    s'.tree = s.tree ∧ s'.marks.size = s.marks.size := by
  unfold mark at h
  split at h
  · cases h
    exact ⟨tree_rise i, (size_rise i).trans size_update⟩
  · cases h

/-- Marking leaves the stall alone. -/
theorem stall_mark {i : Nat} (h : s.mark i b = .ok s') : s'.stall = s.stall := by
  unfold mark at h
  split at h
  · cases h
    exact stall_rise i
  · cases h

/-! ## 2. Good states -/

/-- What a state is like during a match, except that nodes in `but` may be unknown though their
    children determine them. Of the barriers, only those in `marked` are ever marked. -/
structure GoodBut (but marked : Nat → Prop) (s : State) : Prop where
  valid : s.tree.Valid
  size : s.marks.size = s.tree.size
  /-- A stall is a barrier. -/
  stall : ∀ i, s.stall = some i → (s.tree.node i).kind = .barrier
  /-- Nothing below a settled node is unknown. -/
  known : ∀ i j b, s.tree.isBelow i j = true → s.get i = .value b → s.get j ≠ .unknown
  /-- What is settled without a value lies below a settled node. -/
  resolved : ∀ j, s.get j = .resolved → ∃ i b, s.tree.isBelow i j = true ∧ s.get i = .value b
  /-- A node that is determined is settled. -/
  closed : ∀ i, i < s.tree.size → ¬ but i → s.get i = .unknown → s.combine? i = none
  barrier : ∀ i b, (s.tree.node i).kind = .barrier → s.get i = .value b → marked i

/-- **What a state is like at every moment of a match.** -/
abbrev Good (marked : Nat → Prop) (s : State) : Prop := GoodBut (fun _ => False) marked s

variable {but marked : Nat → Prop}

theorem get_fresh {t : Tree} (j : Nat) : (fresh t).get j = .unknown := by
  rcases Nat.lt_or_ge j t.size with hj | hj
  · simp [fresh, get, hj]
  · exact get_of_size_le (by simpa [fresh] using hj)

/-- A node of which nothing is known below is not determined. -/
theorem combine?_of_unknown (h : s.tree.Valid) (hi : i < s.tree.size)
    (hu : ∀ j, s.tree.isBelow i j = true → s.get j = .unknown) : s.combine? i = none := by
  have below {c : Nat} (hc : (s.tree.node i).left = c ∨ (s.tree.node i).right = c)
      (h0 : c ≠ 0) : s.get c = .unknown := hu c (h.child_below hi hc h0).1
  unfold combine?
  cases h.shape i hi with
  | leaf kind _ _ _ => simp [kind]
  | one kind left _ _ _ =>
    rcases kind with kind | kind
    · simp [kind, negation?, below (.inl rfl) (by omega)]
    · simp [kind]
  | two kind left right _ _ _ =>
    have := h.lt_stop (i + 1)
    have hl := below (.inl rfl) (by omega)
    have hr := below (.inr rfl) (by omega)
    rcases kind with kind | kind | kind
    · simp [kind, conjunction?, hl, hr]
    · simp [kind, disjunction?, hl, hr]
    · simp [kind]

theorem good_fresh {t : Tree} (h : t.Valid) : Good marked (fresh t) where
  valid := h
  size := by simp [fresh]
  stall i hi := by cases hi
  known i j b _ hv := by simp [get_fresh] at hv
  resolved j hj := by simp [get_fresh] at hj
  closed i hi _ _ := combine?_of_unknown h hi fun j _ => get_fresh j
  barrier i b _ hv := by simp [get_fresh] at hv

/-- Nothing is known of a node above an unknown one. -/
theorem GoodBut.unknown_above (h : GoodBut but marked s) (hb : s.tree.isBelow i j = true)
    (hj : s.get j = .unknown) : ∀ b, s.get i ≠ .value b := fun b hv => h.known i j b hb hv hj

/-- What lies below an unknown node and is settled has a value, if no other node between them
    has one. -/
theorem GoodBut.value_of_known (h : GoodBut but marked s) (hi : s.get i = .unknown)
    (hb : s.tree.isBelow i j = true) (hbetween : ∀ k, s.tree.isBelow i k = true →
      s.tree.isBelow k j = true → ∀ b, s.get k ≠ .value b) (hj : s.get j ≠ .unknown) :
    ∃ b, s.get j = .value b := by
  cases hm : s.get j with
  | unknown => exact absurd hm hj
  | value b => exact ⟨b, rfl⟩
  | resolved =>
    obtain ⟨k, b, hk, hv⟩ := h.resolved j hm
    rcases Tree.below_linear hb hk with rfl | h' | h'
    · rw [hi] at hv
      cases hv
    · exact absurd hv (hbetween k h' hk b)
    · exact absurd hv (h.unknown_above h' hi b)

/-- A child of an unknown node that is settled has a value. -/
theorem GoodBut.child_value (h : GoodBut but marked s) (hi : s.get i = .unknown) {c : Nat}
    (hilt : i < s.tree.size) (hc : (s.tree.node i).left = c ∨ (s.tree.node i).right = c)
    (h0 : c ≠ 0) (hk : s.get c ≠ .unknown) : ∃ b, s.get c = .value b := by
  obtain ⟨hb, _, child⟩ := h.valid.child_below hilt hc h0
  refine h.value_of_known hi hb (fun k hik hkc b hv => ?_) hk
  have hp := h.valid.parent_of_below hkc
  rw [child.parent] at hp
  rcases hp with rfl | hp
  · exact absurd (Tree.isBelow_iff.mp hik).1 (Nat.lt_irrefl _)
  · have := Tree.isBelow_iff.mp hik
    have := Tree.isBelow_iff.mp hp
    omega

/-! ## 3. What a stall bounds -/

/-- The node lies below the stall, if there is one. -/
def Within (s : State) (j : Nat) : Prop := ∀ i, s.stall = some i → s.tree.isBelow i j = true

theorem within_of_below (h : s.tree.Valid) (hi : s.Within i) (hb : s.tree.isBelow i j = true) :
    s.Within j := fun k hk => h.below_trans (hi k hk) hb

theorem within_parent (h : s.tree.Valid) (hi : s.Within i)
    (hs : s.stall ≠ some (s.tree.node i).parent) : s.Within (s.tree.node i).parent := fun k hk => by
  rcases h.parent_of_below (hi k hk) with hp | hp
  · exact absurd (hp ▸ hk) hs
  · exact hp

/-- What an operation may change: nothing that is known, nothing that is not within the stall,
    and neither the tree nor the stall. -/
structure Changes (s s' : State) : Prop where
  tree : s'.tree = s.tree
  stall : s'.stall = s.stall
  size : s'.marks.size = s.marks.size
  known : ∀ j, s.get j ≠ .unknown → s'.get j = s.get j
  outside : ∀ j, ¬ s.Within j → s'.get j = s.get j

theorem Changes.refl (s : State) : Changes s s := ⟨rfl, rfl, rfl, fun _ _ => rfl, fun _ _ => rfl⟩

theorem Changes.within (h : Changes s s') : s'.Within j ↔ s.Within j := by
  simp only [Within, h.stall, h.tree]

theorem Changes.trans {s'' : State} (h : Changes s s') (h' : Changes s' s'') :
    Changes s s'' where
  tree := h'.tree.trans h.tree
  stall := h'.stall.trans h.stall
  size := h'.size.trans h.size
  known j hj := (h'.known j (by rwa [h.known j hj])).trans (h.known j hj)
  outside j hj := (h'.outside j (mt h.within.mp hj)).trans (h.outside j hj)

/-! ## 4. Settling a node -/

theorem changes_settle (h : GoodBut but marked s) (hi : s.get i = .unknown) (hw : s.Within i) :
    Changes s (s.settle i b) where
  tree := rfl
  stall := rfl
  size := size_update
  known j hj := get_settle_of_known hj fun e => hj (e ▸ hi)
  outside j hj := by
    refine get_settle_of_not_below ?_ fun e => hj (e ▸ hw)
    exact Bool.eq_false_iff.mpr fun hb => hj (within_of_below h.valid hw hb)

theorem get_settle_below (h : s.tree.Valid) (hs : s.marks.size = s.tree.size)
    (hb : s.tree.isBelow i j = true) : (s.settle i b).get j ≠ .unknown := by
  have hj := h.below_lt_size hb
  have hne : j ≠ i := fun e => absurd (Tree.isBelow_iff.mp hb).1 (by omega)
  rw [get_settle_of_ne hne]
  split
  · exact Mark.noConfusion
  · next hc =>
    simp only [hb, Bool.true_and, hs, hj, decide_true, Bool.and_true, beq_iff_eq] at hc
    exact hc

/-- What is unknown after a node has been settled was unknown before, and does not lie below. -/
theorem unknown_of_settle (h : s.tree.Valid) (hs : s.marks.size = s.tree.size)
    (hi : i < s.tree.size) (hj : (s.settle i b).get j = .unknown) :
    j ≠ i ∧ s.tree.isBelow i j = false ∧ s.get j = .unknown := by
  have hne : j ≠ i := fun e => by
    rw [e, get_settle_self (hs ▸ hi)] at hj
    cases hj
  have hb : s.tree.isBelow i j = false :=
    Bool.eq_false_iff.mpr fun hb => get_settle_below h hs hb hj
  exact ⟨hne, hb, by rwa [get_settle_of_not_below hb hne] at hj⟩

/-- The value of a node that is not the parent of `i` does not depend on what lies in the part of
    `i`. -/
theorem combine?_congr (h : s.tree.Valid) (ht : s'.tree = s.tree) {k : Nat} (hk : k < s.tree.size)
    (hc : ∀ c, (s.tree.node k).left = c ∨ (s.tree.node k).right = c → c ≠ 0 → s'.get c = s.get c) :
    s'.combine? k = s.combine? k := by
  unfold combine?
  simp only [ht]
  cases h.shape k hk with
  | leaf kind _ _ _ => simp [kind]
  | one kind left _ _ _ =>
    rcases kind with kind | kind
    · simp [kind, hc _ (.inl rfl) (by omega)]
    · simp [kind]
  | two kind left right _ _ _ =>
    have := h.lt_stop (k + 1)
    have hl := hc _ (.inl rfl) (by omega)
    have hr := hc _ (.inr rfl) (by omega)
    rcases kind with kind | kind | kind
    · simp [kind, hl, hr]
    · simp [kind, hl, hr]
    · simp [kind]

/-- **After a node has been settled only its parent may have to follow.** -/
theorem good_settle (h : GoodBut but marked s) (hi : i < s.tree.size)
    (hu : s.get i = .unknown) (hm : (s.tree.node i).kind = .barrier → marked i)
    (hbut : ∀ k, but k → k = i) :
    GoodBut (fun k => i ≠ 0 ∧ k = (s.tree.node i).parent) marked (s.settle i b) where
  valid := h.valid
  size := size_update.trans h.size
  stall := h.stall
  known k j v hb hv hj := by
    obtain ⟨hji, hjb, hju⟩ := unknown_of_settle h.valid h.size hi hj
    by_cases hk : k = i
    · subst hk
      rw [show (s.settle k b).tree = s.tree from rfl] at hb
      rw [hb] at hjb
      cases hjb
    · rw [get_settle_of_ne hk] at hv
      split at hv
      · cases hv
      · exact h.known k j v hb hv hju
  resolved j hj := by
    by_cases hji : j = i
    · subst hji
      rw [get_settle_self (h.size ▸ hi)] at hj
      cases hj
    · rw [get_settle_of_ne hji] at hj
      split at hj
      · next hc =>
        simp only [Bool.and_eq_true] at hc
        exact ⟨i, b, hc.1.1, get_settle_self (h.size ▸ hi)⟩
      · obtain ⟨k, v, hb, hv⟩ := h.resolved j hj
        have hki : k ≠ i := fun e => by
          rw [e, hu] at hv
          cases hv
        refine ⟨k, v, hb, ?_⟩
        rw [get_settle_of_known (by rw [hv]; exact Mark.noConfusion) hki, hv]
  closed k hk hn hj := by
    obtain ⟨hki, hkb, hku⟩ := unknown_of_settle h.valid h.size hi hj
    rw [← h.closed k hk (fun hb => hki (hbut k hb)) hku]
    refine combine?_congr h.valid (show (s.settle i b).tree = s.tree from rfl) hk
      fun c hc h0 => ?_
    obtain ⟨_, _, child⟩ := h.valid.child_below hk hc h0
    -- a child that changes lies in the part of `i`, and so would `k` unless it is the parent
    refine get_settle_of_not_below (Bool.eq_false_iff.mpr fun hb => ?_) fun e => ?_
    · have hp := h.valid.parent_of_below hb
      rw [child.parent] at hp
      rcases hp with hp | hp
      · exact hki hp
      · rw [hp] at hkb
        cases hkb
    · exact hn ⟨e ▸ h0, by rw [← e, child.parent]⟩
  barrier k v hk hv := by
    by_cases hki : k = i
    · exact hki ▸ hm (hki ▸ hk)
    · rw [get_settle_of_ne hki] at hv
      split at hv
      · cases hv
      · exact h.barrier k v hk hv

/-! ## 5. Marking a node -/

/-- A node without a value of its own has none from its children. -/
theorem combine?_of_barrier (h : (s.tree.node i).kind = .barrier) : s.combine? i = none := by
  simp [combine?, h]

theorem good_of_but (h : GoodBut but marked s)
    (hc : ∀ k, but k → s.get k = .unknown → s.combine? k = none) : Good marked s where
  valid := h.valid
  size := h.size
  stall := h.stall
  known := h.known
  resolved := h.resolved
  closed k hk _ hu := by
    by_cases hb : but k
    · exact hc k hb hu
    · exact h.closed k hk hb hu
  barrier := h.barrier

/-- A node that is determined by its children is no barrier. -/
theorem kind_of_combine? {v : Bool} (h : s.combine? i = some v) :
    (s.tree.node i).kind ≠ .barrier := fun hk => by
  rw [combine?_of_barrier hk] at h
  cases h

/-- **Going up from a settled node.** -/
theorem rise_spec (child : Nat) : ∀ {s : State}, s.Within child → child < s.tree.size →
    GoodBut (fun k => child ≠ 0 ∧ k = (s.tree.node child).parent) marked s →
    Good marked (s.rise child) ∧ Changes s (s.rise child) := by
  induction child using Nat.strongRecOn with
  | ind child ih =>
    intro s hw hlt h
    rw [rise]
    split
    · next hup =>
      split
      · next hstop =>
        refine ⟨good_of_but h fun k hk hu => ?_, .refl s⟩
        rcases hstop with hstop | hstop
        · exact combine?_of_barrier (h.stall k (hk.2 ▸ hstop))
        · exact absurd (hk.2 ▸ hu) hstop
      · next hgo =>
        rw [not_or, Decidable.not_not] at hgo
        split
        · next v hv =>
          have hp : (s.tree.node child).parent < s.tree.size := by omega
          have hwp := within_parent h.valid hw hgo.1
          have hg := good_settle (b := v) h hp hgo.2 (fun hk => absurd hk (kind_of_combine? hv))
            fun k hk => hk.2
          obtain ⟨hgood, hch⟩ := ih _ hup (s := s.settle _ v) hwp hp hg
          exact ⟨hgood, (changes_settle h hgo.2 hwp).trans hch⟩
        · next hv => exact ⟨good_of_but h fun k hk _ => hk.2 ▸ hv, .refl s⟩
    · next hup =>
      refine ⟨good_of_but h fun k hk _ => ?_, .refl s⟩
      have := Tree.isBelow_iff.mp (h.valid.below_parent (Nat.pos_of_ne_zero hk.1) hlt)
      omega

/-- **Marking an unknown node** keeps states good, gives the node its value and changes nothing
    that is known. -/
theorem mark_spec (h : Good marked s) (hi : i < s.tree.size) (hw : s.Within i)
    (hu : s.get i = .unknown) (hm : (s.tree.node i).kind = .barrier → marked i) (b : Bool) :
    ∃ s', s.mark i b = .ok s' ∧ Good marked s' ∧ Changes s s' ∧ s'.get i = .value b := by
  have hg := good_settle (b := b) h hi hu hm fun k hk => hk.elim
  obtain ⟨hgood, hch⟩ := rise_spec i (s := s.settle i b) hw hi hg
  refine ⟨(s.settle i b).rise i, by rw [mark, if_pos (isUnknown_iff.mpr hu)], hgood,
    (changes_settle h hu hw).trans hch, ?_⟩
  have hv : (s.settle i b).get i = .value b := get_settle_self (h.size ▸ hi)
  rw [hch.known i (by rw [hv]; exact Mark.noConfusion), hv]

/-! ## 6. Resetting what lies below a node -/

/-- **Forgetting what lies below an unknown node** keeps states good. -/
theorem good_resetBelow (h : Good marked s) (hu : s.get i = .unknown) :
    Good marked (s.resetBelow i) where
  valid := h.valid
  size := size_update.trans h.size
  stall := h.stall
  known k j v hb hv hj := by
    rw [show (s.resetBelow i).tree = s.tree from rfl] at hb
    have hk : s.tree.isBelow i k = false := Bool.eq_false_iff.mpr fun hk => by
      rw [get_resetBelow_of_below hk] at hv
      cases hv
    rw [get_resetBelow_of_not_below hk] at hv
    cases hij : s.tree.isBelow i j with
    | false => exact h.known k j v hb hv (get_resetBelow_of_not_below hij ▸ hj)
    | true =>
      -- `k` lies above `j` and not below `i`, so it is `i` or above it
      rcases Tree.below_linear hij hb with rfl | h' | h'
      · rw [hu] at hv
        cases hv
      · rw [h'] at hk
        cases hk
      · exact h.known k i v h' hv hu
  resolved j hj := by
    cases hij : s.tree.isBelow i j with
    | true =>
      rw [get_resetBelow_of_below hij] at hj
      cases hj
    | false =>
      rw [get_resetBelow_of_not_below hij] at hj
      obtain ⟨k, v, hb, hv⟩ := h.resolved j hj
      refine ⟨k, v, hb, ?_⟩
      rw [get_resetBelow_of_not_below (Bool.eq_false_iff.mpr fun hk => ?_), hv]
      rw [h.valid.below_trans hk hb] at hij
      cases hij
  closed k hk _ hku := by
    by_cases hki : k = i ∨ s.tree.isBelow i k = true
    · refine combine?_of_unknown h.valid hk fun j hj => get_resetBelow_of_below ?_
      rcases hki with rfl | hki
      · exact hj
      · exact h.valid.below_trans hki hj
    · rw [not_or, Bool.not_eq_true] at hki
      rw [get_resetBelow_of_not_below hki.2] at hku
      rw [← h.closed k hk id hku]
      refine combine?_congr h.valid (show (s.resetBelow i).tree = s.tree from rfl) hk
        fun c hc h0 => get_resetBelow_of_not_below (Bool.eq_false_iff.mpr fun hb => ?_)
      obtain ⟨_, _, child⟩ := h.valid.child_below hk hc h0
      have hp := h.valid.parent_of_below hb
      rw [child.parent] at hp
      rcases hp with hp | hp
      · exact hki.1 hp
      · rw [hki.2] at hp
        cases hp
  barrier k v hk hv := by
    cases hb : s.tree.isBelow i k with
    | true =>
      rw [get_resetBelow_of_below hb] at hv
      cases hv
    | false => exact h.barrier k v hk (get_resetBelow_of_not_below hb ▸ hv)

theorem good_withStall {stall : Option Nat} (h : Good marked s)
    (hs : ∀ i, stall = some i → (s.tree.node i).kind = .barrier) :
    Good marked (s.withStall stall) :=
  ⟨h.valid, h.size, hs, h.known, h.resolved, h.closed, h.barrier⟩

/-! ## 7. Nodes that rest on others -/

/-- **In a good state a node is settled once all are that it rests on.** -/
theorem known_of_rests {bs : Nat → Prop} (h : Good marked s)
    (hb : ∀ j, bs j → s.get j ≠ .unknown) (hr : s.tree.Rests bs i) : s.get i ≠ .unknown := by
  induction hr with
  | here hi => exact hb _ hi
  | not hi hk _ ih =>
    intro hu
    have hl := h.valid.first_child hi (.inl hk)
    obtain ⟨b, hv⟩ := h.child_value hu hi (.inl rfl) (by omega) ih
    have := h.closed _ hi id hu
    simp [combine?, hk, hv, negation?] at this
  | both hi hk _ _ ihl ihr =>
    intro hu
    obtain ⟨hl, hr⟩ := h.valid.two_children hi hk
    obtain ⟨a, ha⟩ := h.child_value hu hi (.inl rfl) (by omega) ihl
    obtain ⟨b, hb⟩ := h.child_value hu hi (.inr rfl) (by omega) ihr
    have := h.closed _ hi id hu
    rcases hk with hk | hk
    · cases a <;> cases b <;> simp [combine?, hk, ha, hb, conjunction?] at this
    · cases a <;> cases b <;> simp [combine?, hk, ha, hb, disjunction?] at this

end Sift.Resolution.State
