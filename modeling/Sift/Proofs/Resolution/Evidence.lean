import Sift.Proofs.Resolution.Truth

/-!
# Why a node has its value

A node that gets a value while another is marked gets it from its children, and they still have
theirs afterwards (`evidence_mark`). So the values of two states can be compared from the leaves up:
if they agree where nodes have been marked, they agree everywhere (`agree_of_evidence`), and if one
state knows of every node that has been marked in the other, it knows whatever the other knows
(`known_of_evidence`).
-/

namespace Sift.Resolution

/-! ## 1. What can be seen from a loop -/

/-- The node lies below the stall, if there is one, and not inside of any of the loops. -/
structure Tree.View (t : Tree) (stall : Option Nat) (loops : Nat → Prop) (j : Nat) : Prop where
  lt : j < t.size
  within : ∀ i, stall = some i → t.isBelow i j = true
  clear : ∀ i, loops i → t.isBelow i j = false

variable {t : Tree} {stall : Option Nat} {loops : Nat → Prop} {i j : Nat}

/-- The children of a node that is no barrier can be seen if it can. -/
theorem Tree.View.child (h : t.View stall loops i) (hv : t.Valid)
    (hl : ∀ b, loops b → (t.node b).kind = .barrier)
    (hk : (t.node i).kind ≠ .barrier) {c : Nat}
    (hc : (t.node i).left = c ∨ (t.node i).right = c) (h0 : c ≠ 0) : t.View stall loops c := by
  obtain ⟨hbelow, -, hchild⟩ := hv.child_below h.lt hc h0
  refine ⟨hv.below_lt_size hbelow, fun k hk => hv.below_trans (h.within k hk) hbelow, fun b hb => ?_⟩
  refine Bool.eq_false_iff.mpr fun hbc => ?_
  have hp := hv.parent_of_below hbc
  rw [hchild.parent] at hp
  rcases hp with rfl | hp
  · exact hk (hl i hb)
  · rw [h.clear b hb] at hp
    cases hp

namespace State

variable {s s' s₁ s₂ : State} {b u u' : Bool} {marked : Nat → Prop}

/-! ## 2. Values from children -/

theorem conjunction?_mono {l r l' r' : Mark} (hl : ∀ u, l = .value u → l' = .value u)
    (hr : ∀ u, r = .value u → r' = .value u) (h : conjunction? l r = some u) :
    conjunction? l' r' = some u := by
  unfold conjunction? at h ⊢
  split at h
  · next hf => rwa [if_pos (hf.imp (hl false) (hr false))]
  · split at h
    · next ht =>
      cases h
      rw [hl _ ht.1, hr _ ht.2]
      rfl
    · cases h

theorem disjunction?_mono {l r l' r' : Mark} (hl : ∀ u, l = .value u → l' = .value u)
    (hr : ∀ u, r = .value u → r' = .value u) (h : disjunction? l r = some u) :
    disjunction? l' r' = some u := by
  unfold disjunction? at h ⊢
  split at h
  · next ht => rwa [if_pos (ht.imp (hl true) (hr true))]
  · split at h
    · next hf =>
      cases h
      rw [hl _ hf.1, hr _ hf.2]
      rfl
    · cases h

theorem negation?_eq_some {m : Mark} (h : negation? m = some u) : m = .value !u := by
  cases m with
  | value b =>
    cases h
    rw [Bool.not_not]
  | unknown | resolved => cases h

/-- **What children determine they determine** as long as they keep their values. -/
theorem combine?_mono (h : s.tree.Valid) (ht : s'.tree = s.tree) (hi : i < s.tree.size)
    (hc : ∀ c, (s.tree.node i).left = c ∨ (s.tree.node i).right = c → c ≠ 0 →
      ∀ u, s.get c = .value u → s'.get c = .value u) (hs : s.combine? i = some u) :
    s'.combine? i = some u := by
  unfold combine? at hs ⊢
  simp only [ht] at hs ⊢
  split at hs
  · next hk =>
    obtain ⟨hl, hr⟩ := h.two_children hi (.inl hk)
    exact conjunction?_mono (hc _ (.inl rfl) (by omega)) (hc _ (.inr rfl) (by omega)) hs
  · next hk =>
    obtain ⟨hl, hr⟩ := h.two_children hi (.inr hk)
    exact disjunction?_mono (hc _ (.inl rfl) (by omega)) (hc _ (.inr rfl) (by omega)) hs
  · next hk =>
    have hl := h.first_child hi (.inl hk)
    rw [hc _ (.inl rfl) (by omega) _ (negation?_eq_some hs), negation?, Bool.not_not]
  · cases hs
  · cases hs

/-- Two marks that agree where both are values are values of one truth. -/
theorem truth_of_agree {m m' : Mark} (h : ∀ u u', m = .value u → m' = .value u' → u = u') :
    ∃ a, (∀ u, m = .value u → a = u) ∧ ∀ u, m' = .value u → a = u := by
  cases m with
  | value u => exact ⟨u, fun _ hu => Mark.value.inj hu, fun u' hu' => h u u' rfl hu'⟩
  | unknown | resolved =>
    cases m' with
    | value u' => exact ⟨u', nofun, fun _ hu => Mark.value.inj hu⟩
    | unknown | resolved => exact ⟨true, nofun, nofun⟩

/-- Children that agree determine the same. -/
theorem combine?_agree (h : s₁.tree.Valid) (ht : s₂.tree = s₁.tree) (hi : i < s₁.tree.size)
    (hc : ∀ c, (s₁.tree.node i).left = c ∨ (s₁.tree.node i).right = c → c ≠ 0 →
      ∀ u u', s₁.get c = .value u → s₂.get c = .value u' → u = u')
    (hs₁ : s₁.combine? i = some u) (hs₂ : s₂.combine? i = some u') : u = u' := by
  unfold combine? at hs₁ hs₂
  simp only [ht] at hs₁ hs₂
  split at hs₁
  · next hk =>
    rw [hk] at hs₂
    obtain ⟨hl, hr⟩ := h.two_children hi (.inl hk)
    obtain ⟨a, ha₁, ha₂⟩ := truth_of_agree (hc _ (.inl rfl) (by omega))
    obtain ⟨b, hb₁, hb₂⟩ := truth_of_agree (hc _ (.inr rfl) (by omega))
    rw [← value_of_conjunction? ha₁ hb₁ hs₁, ← value_of_conjunction? ha₂ hb₂ hs₂]
  · next hk =>
    rw [hk] at hs₂
    obtain ⟨hl, hr⟩ := h.two_children hi (.inr hk)
    obtain ⟨a, ha₁, ha₂⟩ := truth_of_agree (hc _ (.inl rfl) (by omega))
    obtain ⟨b, hb₁, hb₂⟩ := truth_of_agree (hc _ (.inr rfl) (by omega))
    rw [← value_of_disjunction? ha₁ hb₁ hs₁, ← value_of_disjunction? ha₂ hb₂ hs₂]
  · next hk =>
    rw [hk] at hs₂
    have hl := h.first_child hi (.inl hk)
    exact Bool.not_inj (hc _ (.inl rfl) (by omega) _ _ (negation?_eq_some hs₁)
      (negation?_eq_some hs₂))
  · cases hs₁
  · cases hs₁

/-! ## 3. Marking -/

/-- Going up changes nothing that is known. -/
theorem get_rise_of_known (child : Nat) : ∀ {s : State}, s.get j ≠ .unknown →
    (s.rise child).get j = s.get j := by
  induction child using Nat.strongRecOn with
  | ind child ih =>
    intro s hj
    rw [rise]
    split
    · next hup =>
      split
      · rfl
      · next hgo =>
        rw [not_or, Decidable.not_not] at hgo
        split
        · have hne : j ≠ (s.tree.node child).parent := fun e => hj (e ▸ hgo.2)
          have hkept := get_settle_of_known (b := by assumption) hj hne
          rw [ih _ hup (by rw [hkept]; exact hj), hkept]
        · rfl
    · rfl

/-- **What gets a value on the way up** gets it from its children. -/
theorem evidence_rise (child : Nat) : ∀ {s : State}, s.tree.Valid → child < s.tree.size →
    (s.rise child).get j = .value u →
    s.get j = .value u ∨ (s.rise child).combine? j = some u := by
  induction child using Nat.strongRecOn with
  | ind child ih =>
    intro s hv hlt hj
    rw [rise] at hj ⊢
    split at hj
    · next hup =>
      rw [dif_pos hup]
      split at hj
      · exact .inl hj
      · next hgo =>
        rw [if_neg hgo]
        rw [not_or, Decidable.not_not] at hgo
        split at hj
        · next v hs =>
          have hp : (s.tree.node child).parent < s.tree.size := by omega
          rcases ih _ hup (s := s.settle _ v) hv hp hj with hj' | hj'
          · by_cases hne : j = (s.tree.node child).parent
            · right
              have hu : v = u := by
                have hlt := lt_size_of_known (show (s.settle _ v).get j ≠ .unknown by
                  rw [hj']; exact Mark.noConfusion)
                rw [settle, size_update] at hlt
                rw [hne, get_settle_self (hne ▸ hlt)] at hj'
                exact Mark.value.inj hj'
              subst hu
              rw [hne]
              refine combine?_mono hv (tree_rise _) hp (fun c _ _ w hw => ?_) hs
              -- the children are known, and so they keep their values
              have hcp : c ≠ (s.tree.node child).parent := fun e => by
                rw [e, hgo.2] at hw
                cases hw
              have hk : s.get c ≠ .unknown := by
                rw [hw]
                exact Mark.noConfusion
              have hkept := get_settle_of_known (b := v) hk hcp
              rw [get_rise_of_known _ (by rw [hkept]; exact hk), hkept, hw]
            · left
              rw [get_settle_of_ne hne] at hj'
              split at hj'
              · cases hj'
              · exact hj'
          · exact .inr hj'
        · exact .inl hj
    · exact .inl hj

/-- **What has a value after a node has been marked** had it before, or is that node, or has it from
    its children. -/
theorem evidence_mark (hv : s.tree.Valid) (hi : i < s.tree.size) (h : s.mark i b = .ok s')
    (hj : s'.get j = .value u) :
    s.get j = .value u ∨ (j = i ∧ u = b) ∨ s'.combine? j = some u := by
  unfold mark at h
  split at h
  · cases h
    rcases evidence_rise (s := s.settle i b) i hv hi hj with hj' | hj'
    · by_cases hne : j = i
      · subst hne
        have hlt := lt_size_of_known (show (s.settle j b).get j ≠ .unknown by
          rw [hj']; exact Mark.noConfusion)
        rw [settle, size_update] at hlt
        rw [get_settle_self hlt] at hj'
        exact .inr (.inl ⟨rfl, (Mark.value.inj hj').symm⟩)
      · rw [get_settle_of_ne hne] at hj'
        split at hj'
        · cases hj'
        · exact .inl hj'
    · exact .inr (.inr hj')
  · cases h

/-! ## 4. Two states -/

/-- Nothing has a value in both states that is not the same. -/
def Agree (V : Nat → Prop) (s₁ s₂ : State) : Prop :=
  ∀ i, V i → ∀ u u', s₁.get i = .value u → s₂.get i = .value u' → u = u'

/-- A leaf or a barrier gets nothing from children. -/
theorem combine?_of_tip (h : (s.tree.node i).kind = .leaf ∨ (s.tree.node i).kind = .barrier) :
    s.combine? i = none := by
  rcases h with h | h <;> simp [combine?, h]

section Two

variable (hv : s₁.tree.Valid) (ht : s₂.tree = s₁.tree)
  (hl : ∀ b, loops b → (s₁.tree.node b).kind = .barrier)

include hv ht hl

/-- **Two states agree** if they do where nodes have not got their values from their children. -/
theorem agree_of_evidence {E E' : Nat → Bool → Prop} (hE : ∀ i u u', E i u → E' i u' → u = u')
    (hleaf : ∀ i u, E i u → s₂.combine? i = none) (hleaf' : ∀ i u, E' i u → s₁.combine? i = none)
    (h : ∀ i, s₁.tree.View stall loops i →
      (∀ u u', s₁.get i = .value u → s₂.get i = .value u' → u = u') ∨
      (∀ u, s₁.get i = .value u → E i u ∨ s₁.combine? i = some u) ∧
        ∀ u, s₂.get i = .value u → E' i u ∨ s₂.combine? i = some u) :
    Agree (s₁.tree.View stall loops) s₁ s₂ := by
  intro i hi
  refine Tree.backward (P := fun i => s₁.tree.View stall loops i → ∀ u u',
    s₁.get i = .value u → s₂.get i = .value u' → u = u')
    (fun i hlt ih hi u u' hu hu' => ?_) i hi.lt hi
  rcases h i hi with h | ⟨h₁, h₂⟩
  · exact h u u' hu hu'
  rcases h₁ u hu with he | hc
  · rcases h₂ u' hu' with he' | hc'
    · exact hE i u u' he he'
    · rw [hleaf i u he] at hc'
      cases hc'
  · rcases h₂ u' hu' with he' | hc'
    · rw [hleaf' i u' he'] at hc
      cases hc
    · refine combine?_agree hv ht hlt (fun c hchild h0 => ?_) hc hc'
      obtain ⟨hbelow, -, -⟩ := hv.child_below hlt hchild h0
      exact ih c (Tree.isBelow_iff.mp hbelow).1 (hv.below_lt_size hbelow)
        (hi.child hv hl (kind_of_combine? hc) hchild h0)

end Two

/-- What is settled without a value lies below a node that has one and can be seen as well. -/
theorem GoodBut.value_above {but : Nat → Prop} (h : GoodBut but marked s)
    (hs : ∀ i, s.stall = some i → s.get i = .unknown) (hj : s.tree.View s.stall loops j)
    (hr : s.get j = .resolved) :
    ∃ i u, s.tree.isBelow i j = true ∧ s.tree.View s.stall loops i ∧ s.get i = .value u := by
  obtain ⟨i, u, hb, hu⟩ := h.resolved j hr
  refine ⟨i, u, hb, ⟨h.valid.above_lt_size hb, fun k hk => ?_, fun b hbl => ?_⟩, hu⟩
  · rcases Tree.below_linear (hj.within k hk) hb with rfl | h' | h'
    · rw [hs k hk] at hu
      cases hu
    · exact h'
    · exact absurd hu (h.unknown_above h' (hs k hk) u)
  · refine Bool.eq_false_iff.mpr fun hbi => ?_
    have := hj.clear b hbl
    rw [h.valid.below_trans hbi hb] at this
    cases this

/-- What lies below a node of which something is known is known. -/
theorem GoodBut.known_below {but : Nat → Prop} (h : GoodBut but marked s)
    (hb : s.tree.isBelow i j = true) (hi : s.get i ≠ .unknown) : s.get j ≠ .unknown := by
  cases hm : s.get i with
  | unknown => exact absurd hm hi
  | value u => exact h.known i j u hb hm
  | resolved =>
    obtain ⟨k, u, hk, hu⟩ := h.resolved i hm
    exact h.known k j u (h.valid.below_trans hk hb) hu

/-- **What one of two good states that agree knows, the other knows**, if it knows what has not got
    its value from its children. -/
theorem known_of_evidence (h₁ : Good marked s₁) (h₂ : Good marked s₂) (ht : s₂.tree = s₁.tree)
    (hstall : s₂.stall = s₁.stall) (hs : ∀ i, s₂.stall = some i → s₂.get i = .unknown)
    (hl : ∀ b, loops b → (s₁.tree.node b).kind = .barrier)
    (hagree : Agree (s₁.tree.View s₁.stall loops) s₁ s₂)
    (h : ∀ i u, s₁.tree.View s₁.stall loops i → s₂.get i = .value u →
      s₁.get i ≠ .unknown ∨ s₂.combine? i = some u) :
    ∀ i, s₁.tree.View s₁.stall loops i → s₂.get i ≠ .unknown → s₁.get i ≠ .unknown := by
  have value : ∀ i, s₁.tree.View s₁.stall loops i → ∀ u, s₂.get i = .value u →
      s₁.get i ≠ .unknown := by
    intro i hi
    refine Tree.backward (P := fun i => s₁.tree.View s₁.stall loops i → ∀ u,
      s₂.get i = .value u → s₁.get i ≠ .unknown) (fun i hlt ih hi u hu => ?_) i hi.lt hi
    rcases h i u hi hu with hk | hc
    · exact hk
    -- were nothing known of the node, its children would determine it
    intro hun
    have hc₁ : s₁.combine? i = some u := by
      refine combine?_mono h₂.valid ht.symm (ht ▸ hlt) (fun c hchild h0 v hv => ?_) hc
      rw [ht] at hchild
      obtain ⟨hbelow, -, -⟩ := h₁.valid.child_below hlt hchild h0
      have hview := hi.child h₁.valid hl
        (by rw [← ht]; exact kind_of_combine? hc) hchild h0
      have hk := ih c (Tree.isBelow_iff.mp hbelow).1 (h₁.valid.below_lt_size hbelow) hview v hv
      obtain ⟨v', hv'⟩ := h₁.child_value hun hlt hchild h0 hk
      rw [hv', hagree c hview v' v hv' hv]
    rw [h₁.closed i hlt id hun] at hc₁
    cases hc₁
  intro i hi hk
  cases hm : s₂.get i with
  | unknown => exact absurd hm hk
  | value u => exact value i hi u hm
  | resolved =>
    rw [← ht, ← hstall] at hi
    obtain ⟨k, u, hbelow, hview, hu⟩ := h₂.value_above hs hi hm
    rw [ht, hstall] at hview
    rw [ht] at hbelow
    exact h₁.known_below hbelow (value k hview u hu)

end State

end Sift.Resolution
