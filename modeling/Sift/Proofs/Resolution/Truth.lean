import Sift.Proofs.Resolution.Marks

/-!
# Marks that are true

Once every leaf and every barrier of a tree has a truth value, so has every node: `Tree.truth`.
Truth values that go with one another are `Consistent`; marks that agree with them are `Sound`.

`sound_mark`: marking a node with its truth value leaves the marks sound, however far the marking
goes up.
-/

namespace Sift.Resolution

/-! ## 1. Truth values of a tree -/

namespace Tree

/-- The truth value of a node, where leaves and barriers have those of `given`. -/
def truth (t : Tree) (given : Nat → Bool) (i : Nat) : Bool :=
  match (t.node i).kind with
  | .and =>
    if _h : (i < (t.node i).left ∧ (t.node i).left < t.size) ∧
        i < (t.node i).right ∧ (t.node i).right < t.size then
      truth t given (t.node i).left && truth t given (t.node i).right
    else false
  | .or =>
    if _h : (i < (t.node i).left ∧ (t.node i).left < t.size) ∧
        i < (t.node i).right ∧ (t.node i).right < t.size then
      truth t given (t.node i).left || truth t given (t.node i).right
    else false
  | .not =>
    if _h : i < (t.node i).left ∧ (t.node i).left < t.size then !truth t given (t.node i).left
    else false
  | .leaf | .barrier => given i
termination_by t.size - i
decreasing_by all_goals omega

/-- Truth values of which each goes with those of the children. -/
structure Consistent (t : Tree) (truth : Nat → Bool) : Prop where
  and : ∀ i, i < t.size → (t.node i).kind = .and →
    truth i = (truth (t.node i).left && truth (t.node i).right)
  or : ∀ i, i < t.size → (t.node i).kind = .or →
    truth i = (truth (t.node i).left || truth (t.node i).right)
  not : ∀ i, i < t.size → (t.node i).kind = .not → truth i = !truth (t.node i).left

variable {t : Tree} {given : Nat → Bool} {i : Nat}

theorem truth_of_leaf (h : (t.node i).kind = .leaf ∨ (t.node i).kind = .barrier) :
    t.truth given i = given i := by
  rw [truth]
  rcases h with h | h <;> simp [h]

theorem consistent_truth (h : t.Valid) (given : Nat → Bool) : t.Consistent (t.truth given) where
  and i hi hk := by
    rw [truth]
    simp only [hk]
    rw [dif_pos (h.two_children hi (.inl hk))]
  or i hi hk := by
    rw [truth]
    simp only [hk]
    rw [dif_pos (h.two_children hi (.inr hk))]
  not i hi hk := by
    rw [truth]
    simp only [hk]
    rw [dif_pos (h.first_child hi (.inl hk))]

end Tree

/-! ## 2. Sound marks -/

namespace State

variable {s s' : State} {truth : Nat → Bool} {i : Nat}

/-- Every node that the stall bounds and that has a value has its truth value. -/
def Sound (truth : Nat → Bool) (s : State) : Prop :=
  ∀ j b, s.Within j → s.get j = .value b → truth j = b

theorem value_of_conjunction? {l r : Mark} {a b v : Bool} (hl : ∀ v, l = .value v → a = v)
    (hr : ∀ v, r = .value v → b = v) (h : conjunction? l r = some v) : (a && b) = v := by
  unfold conjunction? at h
  split at h
  · next hf =>
    cases h
    rcases hf with hf | hf
    · simp [hl _ hf]
    · simp [hr _ hf]
  · split at h
    · next ht =>
      cases h
      simp [hl _ ht.1, hr _ ht.2]
    · cases h

theorem value_of_disjunction? {l r : Mark} {a b v : Bool} (hl : ∀ v, l = .value v → a = v)
    (hr : ∀ v, r = .value v → b = v) (h : disjunction? l r = some v) : (a || b) = v := by
  unfold disjunction? at h
  split at h
  · next hf =>
    cases h
    rcases hf with hf | hf
    · simp [hl _ hf]
    · simp [hr _ hf]
  · split at h
    · next ht =>
      cases h
      simp [hl _ ht.1, hr _ ht.2]
    · cases h

/-- A node that is determined by sound marks is determined to be what it is. -/
theorem Sound.combine? (h : s.Sound truth) (hv : s.tree.Valid) (hc : s.tree.Consistent truth)
    (hi : i < s.tree.size) (hw : s.Within i) {v : Bool} (hs : s.combine? i = some v) :
    truth i = v := by
  have child {c : Nat} (hc : (s.tree.node i).left = c ∨ (s.tree.node i).right = c)
      (h0 : i < c) : ∀ v, s.get c = .value v → truth c = v := fun v hg =>
    h c v (within_of_below hv hw (hv.child_below hi hc (by omega)).1) hg
  unfold State.combine? at hs
  simp only at hs
  split at hs
  · next hk =>
    obtain ⟨hl, hr⟩ := hv.two_children hi (.inl hk)
    rw [hc.and i hi hk]
    exact value_of_conjunction? (child (.inl rfl) hl.1) (child (.inr rfl) hr.1) hs
  · next hk =>
    obtain ⟨hl, hr⟩ := hv.two_children hi (.inr hk)
    rw [hc.or i hi hk]
    exact value_of_disjunction? (child (.inl rfl) hl.1) (child (.inr rfl) hr.1) hs
  · next hk =>
    have hl := hv.first_child hi (.inl hk)
    rw [hc.not i hi hk]
    cases hm : s.get (s.tree.node i).left with
    | value b =>
      rw [hm] at hs
      cases hs
      rw [child (.inl rfl) hl.1 b hm]
    | unknown => simp [hm, negation?] at hs
    | resolved => simp [hm, negation?] at hs
  · cases hs
  · cases hs

theorem Sound.settle (h : s.Sound truth) {v : Bool} (hv : truth i = v) :
    (s.settle i v).Sound truth := fun j b hw hj => by
  rcases Nat.lt_or_ge j s.marks.size with hlt | hge
  · by_cases hji : j = i
    · subst hji
      rw [get_settle_self hlt] at hj
      cases hj
      exact hv
    · rw [get_settle_of_ne hji] at hj
      split at hj
      · cases hj
      · exact h j b hw hj
  · rw [get_of_size_le (by rwa [State.settle, size_update])] at hj
    cases hj

theorem Sound.rise (child : Nat) : ∀ {s : State}, s.Sound truth → s.tree.Valid →
    s.tree.Consistent truth → s.Within child → child < s.tree.size →
    (s.rise child).Sound truth := by
  induction child using Nat.strongRecOn with
  | ind child ih =>
    intro s h hv hc hw hlt
    rw [State.rise]
    split
    · next hup =>
      split
      · exact h
      · next hgo =>
        rw [not_or] at hgo
        split
        · next v hs =>
          have hp : (s.tree.node child).parent < s.tree.size := by omega
          have hwp := within_parent hv hw hgo.1
          exact ih _ hup (s := s.settle _ v) (h.settle (h.combine? hv hc hp hwp hs)) hv hc hwp hp
        · exact h
    · exact h

/-- **Marking a node with its truth value** leaves the marks sound. -/
theorem Sound.mark (h : s.Sound truth) (hv : s.tree.Valid) (hc : s.tree.Consistent truth)
    (hi : i < s.tree.size) (hw : s.Within i) (hs : s.mark i (truth i) = .ok s') :
    s'.Sound truth := by
  unfold State.mark at hs
  split at hs
  · cases hs
    exact Sound.rise i (s := s.settle i (truth i)) (h.settle rfl) hv hc hw hi
  · cases hs

end State

end Sift.Resolution
