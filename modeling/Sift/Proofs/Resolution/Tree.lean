import Mathlib.Logic.Relation
import Sift.Resolution.Tree

/-!
# The order of a resolution tree

`Tree.Valid` says that every node lies where pre-order has it: its children follow it, the first
directly, the second where the first one's part ends, and its own part ends with theirs. From this
alone come the facts about `isBelow` that marking needs:

* `Valid.below_nested`: of what lies below a node, the parts lie inside the node's part and the
  parents do not lie above it;
* `Valid.below_parent`: every node but the root lies below its parent;
* `below_linear`: two nodes above a third one are above one another;
* `Valid.below_iff_transGen`: what lies below a node is what has it above in the line of its parents.

`valid_of_ofNodes`: an array of nodes that is accepted is valid.
-/

namespace Sift.Resolution

namespace Tree

variable {t : Tree}

/-! ## 1. Shapes -/

/-- Node `c` is the child of node `i` that starts at `c`. -/
structure IsChild (t : Tree) (i c : Nat) : Prop where
  lt : c < t.size
  parent : (t.node c).parent = i

/-- What a node says, and where its part and those of its children lie. -/
inductive Shape (t : Tree) (i : Nat) : Prop
  | leaf (kind : (t.node i).kind = .leaf) (left : (t.node i).left = 0)
      (right : (t.node i).right = 0) (stop : t.stop i = i + 1)
  | one (kind : (t.node i).kind = .not ∨ (t.node i).kind = .barrier)
      (left : (t.node i).left = i + 1) (right : (t.node i).right = 0)
      (child : t.IsChild i (i + 1)) (stop : t.stop i = t.stop (i + 1))
  | two (kind : (t.node i).kind = .and ∨ (t.node i).kind = .or ∨ (t.node i).kind = .barrier)
      (left : (t.node i).left = i + 1) (right : (t.node i).right = t.stop (i + 1))
      (child : t.IsChild i (i + 1)) (other : t.IsChild i (t.stop (i + 1)))
      (stop : t.stop i = t.stop (t.stop (i + 1)))

/-- Every node lies where pre-order has it, and the nodes are one tree. -/
structure Valid (t : Tree) : Prop where
  pos : 0 < t.size
  ends : t.ends.size = t.size
  shape : ∀ i, i < t.size → t.Shape i
  root : (t.node 0).parent = 0
  whole : t.stop 0 = t.size

/-! ## 2. Parts -/

theorem stop_of_size_le (h : t.ends.size = t.size) {i : Nat} (hi : t.size ≤ i) :
    t.stop i = i + 1 := by
  simp [stop, Array.getElem?_eq_none (by omega : t.ends.size ≤ i)]

theorem isBelow_iff {i j : Nat} : t.isBelow i j = true ↔ i < j ∧ j < t.stop i := by
  simp [isBelow]

/-- Two nodes above a third one are the same or above one another. -/
theorem below_linear {a b j : Nat} (ha : t.isBelow a j = true) (hb : t.isBelow b j = true) :
    a = b ∨ t.isBelow a b = true ∨ t.isBelow b a = true := by
  have ha' := isBelow_iff.mp ha
  have hb' := isBelow_iff.mp hb
  rcases Nat.lt_trichotomy a b with hlt | rfl | hlt
  · exact .inr (.inl (isBelow_iff.mpr (by omega)))
  · exact .inl rfl
  · exact .inr (.inr (isBelow_iff.mpr (by omega)))

/-- What holds of a node if it holds of all later ones holds of every node. -/
theorem backward {P : Nat → Prop}
    (h : ∀ i, i < t.size → (∀ c, i < c → c < t.size → P c) → P i) : ∀ i, i < t.size → P i := by
  intro i hi
  induction hn : t.size - i using Nat.strongRecOn generalizing i with
  | ind n ih => exact h i hi fun c hic hc => ih (t.size - c) (by omega) c hc rfl

/-- A part holds its node, and ends with the tree at the latest. -/
theorem stop_bounds (h : ∀ i, i < t.size → t.Shape i) :
    ∀ i, i < t.size → i < t.stop i ∧ t.stop i ≤ t.size := by
  refine backward fun i hi ih => ?_
  cases h i hi with
  | leaf _ _ _ stop => omega
  | one _ _ _ child stop =>
    have := ih (i + 1) (by omega) child.lt
    omega
  | two _ _ _ child other stop =>
    have h₁ := ih (i + 1) (by omega) child.lt
    have h₂ := ih _ (by omega) other.lt
    omega

namespace Valid

theorem lt_stop (h : t.Valid) (i : Nat) : i < t.stop i := by
  rcases Nat.lt_or_ge i t.size with hi | hi
  · exact (stop_bounds h.shape i hi).1
  · rw [stop_of_size_le h.ends hi]
    omega

theorem stop_le (h : t.Valid) {i : Nat} (hi : i < t.size) : t.stop i ≤ t.size :=
  (stop_bounds h.shape i hi).2

theorem below_lt_size (h : t.Valid) {i j : Nat} (hb : t.isBelow i j = true) : j < t.size := by
  obtain ⟨hij, hj⟩ := isBelow_iff.mp hb
  rcases Nat.lt_or_ge i t.size with hi | hi
  · exact Nat.lt_of_lt_of_le hj (h.stop_le hi)
  · rw [stop_of_size_le h.ends hi] at hj
    omega

theorem above_lt_size (h : t.Valid) {i j : Nat} (hb : t.isBelow i j = true) : i < t.size :=
  Nat.lt_trans (isBelow_iff.mp hb).1 (h.below_lt_size hb)

/-! ## 3. What lies below a node -/

/-- A child lies below its parent, and its part in its parent's part. -/
theorem child_below (h : t.Valid) {i c : Nat} (hi : i < t.size)
    (hc : (t.node i).left = c ∨ (t.node i).right = c) (h0 : c ≠ 0) :
    t.isBelow i c = true ∧ t.stop c ≤ t.stop i ∧ t.IsChild i c := by
  have hs := h.lt_stop (i + 1)
  cases h.shape i hi with
  | leaf _ left right _ => omega
  | one _ left right child stop =>
    obtain rfl : c = i + 1 := by omega
    exact ⟨isBelow_iff.mpr (by omega), by omega, child⟩
  | two _ left right child other stop =>
    have hs' := h.lt_stop (t.stop (i + 1))
    rcases hc with hc | hc
    · obtain rfl : c = i + 1 := by omega
      exact ⟨isBelow_iff.mpr (by omega), by omega, child⟩
    · obtain rfl : c = t.stop (i + 1) := by omega
      exact ⟨isBelow_iff.mpr (by omega), by omega, other⟩

/-- The children of a node that has two. -/
theorem two_children (h : t.Valid) {i : Nat} (hi : i < t.size)
    (hk : (t.node i).kind = .and ∨ (t.node i).kind = .or) :
    (i < (t.node i).left ∧ (t.node i).left < t.size) ∧
      i < (t.node i).right ∧ (t.node i).right < t.size := by
  have hs := h.lt_stop (i + 1)
  cases h.shape i hi with
  | leaf kind _ _ _ => simp [kind] at hk
  | one kind _ _ _ _ => rcases kind with kind | kind <;> simp [kind] at hk
  | two _ left right child other _ =>
    have := child.lt
    have := other.lt
    omega

/-- The first child of a negation or a barrier. -/
theorem first_child (h : t.Valid) {i : Nat} (hi : i < t.size)
    (hk : (t.node i).kind = .not ∨ (t.node i).kind = .barrier) :
    i < (t.node i).left ∧ (t.node i).left < t.size := by
  cases h.shape i hi with
  | leaf kind _ _ _ => simp [kind] at hk
  | one _ left _ child _ =>
    have := child.lt
    omega
  | two _ left _ child _ _ =>
    have := child.lt
    omega

/-- What lies below a node is one of its children or lies below one. -/
theorem below_cases (h : t.Valid) {i j : Nat} (hb : t.isBelow i j = true) :
    ∃ c, ((t.node i).left = c ∨ (t.node i).right = c) ∧ c ≠ 0 ∧
      (j = c ∨ t.isBelow c j = true) := by
  obtain ⟨hij, hj⟩ := isBelow_iff.mp hb
  cases h.shape i (h.above_lt_size hb) with
  | leaf _ _ _ stop => omega
  | one _ left _ _ stop =>
    refine ⟨i + 1, .inl left, by omega, ?_⟩
    rw [isBelow_iff]
    omega
  | two _ left right _ _ stop =>
    rcases Nat.lt_or_ge j (t.stop (i + 1)) with hlt | hge
    · refine ⟨i + 1, .inl left, by omega, ?_⟩
      rw [isBelow_iff]
      omega
    · have := h.lt_stop (i + 1)
      refine ⟨t.stop (i + 1), .inr right, by omega, ?_⟩
      rw [isBelow_iff]
      omega

/-- **Parts lie inside one another**: below a node, no part reaches past the node's part and no
    parent lies above the node. -/
theorem below_nested (h : t.Valid) : ∀ i, i < t.size → ∀ j, t.isBelow i j = true →
    t.stop j ≤ t.stop i ∧ t.isBelow (t.node j).parent j = true ∧
      ((t.node j).parent = i ∨ t.isBelow i (t.node j).parent = true) := by
  refine backward fun i hi ih j hb => ?_
  obtain ⟨c, hc, h0, hj⟩ := h.below_cases hb
  obtain ⟨hic, hstop, child⟩ := h.child_below hi hc h0
  rcases hj with rfl | hj
  · rw [child.parent]
    exact ⟨hstop, hic, .inl rfl⟩
  · have hlt := (isBelow_iff.mp hic).1
    obtain ⟨h₁, h₂, h₃⟩ := ih c hlt child.lt j hj
    refine ⟨by omega, h₂, .inr ?_⟩
    rcases h₃ with h₃ | h₃
    · rw [h₃]
      exact hic
    · have := isBelow_iff.mp h₃
      exact isBelow_iff.mpr (by omega)

theorem below_trans (h : t.Valid) {i j k : Nat} (hij : t.isBelow i j = true)
    (hjk : t.isBelow j k = true) : t.isBelow i k = true := by
  have := h.below_nested i (h.above_lt_size hij) j hij
  have := isBelow_iff.mp hij
  have := isBelow_iff.mp hjk
  exact isBelow_iff.mpr (by omega)

theorem root_below (h : t.Valid) {j : Nat} (h0 : 0 < j) (hj : j < t.size) :
    t.isBelow 0 j = true := by
  have := h.whole
  exact isBelow_iff.mpr (by omega)

/-- Every node but the root lies below its parent. -/
theorem below_parent (h : t.Valid) {j : Nat} (h0 : 0 < j) (hj : j < t.size) :
    t.isBelow (t.node j).parent j = true :=
  (h.below_nested 0 h.pos j (h.root_below h0 hj)).2.1

/-- The parent of what lies below a node is the node or lies below it. -/
theorem parent_of_below (h : t.Valid) {i j : Nat} (hb : t.isBelow i j = true) :
    (t.node j).parent = i ∨ t.isBelow i (t.node j).parent = true :=
  (h.below_nested i (h.above_lt_size hb) j hb).2.2

/-- **What lies below a node is what has it above in the line of its parents.** -/
theorem below_iff_transGen (h : t.Valid) {i j : Nat} :
    t.isBelow i j = true ↔ Relation.TransGen (fun a b => 0 < b ∧ t.IsChild a b) i j := by
  refine ⟨fun hb => ?_, fun hd => ?_⟩
  · induction j using Nat.strongRecOn with
    | ind j ih =>
      have h0 : 0 < j := Nat.zero_lt_of_lt (isBelow_iff.mp hb).1
      have hj := h.below_lt_size hb
      rcases h.parent_of_below hb with hp | hp
      · exact .single ⟨h0, hj, hp⟩
      · exact .tail (ih _ (isBelow_iff.mp (h.below_parent h0 hj)).1 hp) ⟨h0, hj, rfl⟩
  · induction hd with
    | single hp =>
      obtain ⟨h0, hj, rfl⟩ := hp
      exact h.below_parent h0 hj
    | tail _ hp ih =>
      obtain ⟨h0, hj, rfl⟩ := hp
      exact h.below_trans ih (h.below_parent h0 hj)

end Valid

/-- The node is determined once all of `bs` are. -/
inductive Rests (t : Tree) (bs : Nat → Prop) : Nat → Prop
  | here {i : Nat} (h : bs i) : Rests t bs i
  | not {i : Nat} (hi : i < t.size) (hk : (t.node i).kind = .not)
      (hl : Rests t bs (t.node i).left) : Rests t bs i
  | both {i : Nat} (hi : i < t.size) (hk : (t.node i).kind = .and ∨ (t.node i).kind = .or)
      (hl : Rests t bs (t.node i).left) (hr : Rests t bs (t.node i).right) : Rests t bs i

/-! ## 4. Accepted arrays -/

/-- `t` has the ends that the walk of the part at `i` has learned. -/
def HasEnds (t : Tree) (i : Nat) (ends : List Nat) : Prop :=
  ∀ k, k < ends.length → t.ends[i + k]? = ends[k]?

theorem HasEnds.stop {i e : Nat} {ends : List Nat} (h : t.HasEnds i (e :: ends)) :
    t.stop i = e := by
  have := h 0 (by simp)
  simpa [Tree.stop] using congrArg (·.getD (i + 1)) this

theorem HasEnds.tail {i e : Nat} {ends : List Nat} (h : t.HasEnds i (e :: ends)) :
    t.HasEnds (i + 1) ends := fun k hk => by
  have := h (k + 1) (by simpa using hk)
  rwa [List.getElem?_cons_succ, ← Nat.add_assoc, Nat.add_right_comm] at this

theorem HasEnds.left {i : Nat} {l r : List Nat} (h : t.HasEnds i (l ++ r)) : t.HasEnds i l :=
  fun k hk => by
    rw [h k (by rw [List.length_append]; omega), List.getElem?_append_left hk]

theorem HasEnds.right {i : Nat} {l r : List Nat} (h : t.HasEnds i (l ++ r)) :
    t.HasEnds (i + l.length) r := fun k hk => by
  rw [Nat.add_assoc, h (l.length + k) (by rw [List.length_append]; omega),
    List.getElem?_append_right (by omega), Nat.add_sub_cancel_left]

/-- What the walk of the part at `i` learns of a tree that has the ends it tells. -/
structure Learned (t : Tree) (parent i next : Nat) : Prop where
  next_le : next ≤ t.size
  parent : (t.node i).parent = parent
  stop : t.stop i = next
  shape : ∀ j, i ≤ j → j < next → t.Shape j

theorem enter_ok {nodes : Array TreeNode} {node child expected : Nat}
    {c : { c : Nat // c = expected ∧ c < nodes.size }}
    (h : enter nodes node child expected = .ok c) :
    child = expected := by
  unfold enter at h
  split at h
  · split at h
    · assumption
    · cases h
  · cases h

theorem of_bind_ok {ε α β : Type} {x : Except ε α} {f : α → Except ε β} {b : β}
    (h : x >>= f = .ok b) : ∃ a, x = .ok a ∧ f a = .ok b := by
  cases x with
  | error e => cases h
  | ok a => exact ⟨a, rfl, h⟩

/-- The walk of a node with one child. -/
theorem learned_one {parent i : Nat} {l : Part (i + 1)}
    (hp : (t.node i).parent = parent)
    (hkind : (t.node i).kind = .not ∨ (t.node i).kind = .barrier)
    (hleft : (t.node i).left = i + 1) (hright : (t.node i).right = 0) (hc : i + 1 < t.size)
    (hl : l.ends.length = l.next - (i + 1) ∧
      (t.HasEnds (i + 1) l.ends → t.Learned i (i + 1) l.next)) :
    (l.next :: l.ends).length = l.next - i ∧
      (t.HasEnds i (l.next :: l.ends) → t.Learned parent i l.next) := by
  have := l.lt
  refine ⟨by rw [List.length_cons, hl.1]; omega, fun he => ?_⟩
  have child := hl.2 he.tail
  refine ⟨child.next_le, hp, he.stop, fun j hij hj => ?_⟩
  rcases Nat.eq_or_lt_of_le hij with rfl | hlt
  · exact .one hkind hleft hright ⟨hc, child.parent⟩ (he.stop.trans child.stop.symm)
  · exact child.shape j hlt hj

/-- The walk of a node with two children. -/
theorem learned_two {parent i : Nat} {l : Part (i + 1)} {r : Part l.next}
    (hp : (t.node i).parent = parent)
    (hkind : (t.node i).kind = .and ∨ (t.node i).kind = .or ∨ (t.node i).kind = .barrier)
    (hleft : (t.node i).left = i + 1) (hright : (t.node i).right = l.next)
    (hc : i + 1 < t.size) (hd : l.next < t.size)
    (hl : l.ends.length = l.next - (i + 1) ∧
      (t.HasEnds (i + 1) l.ends → t.Learned i (i + 1) l.next))
    (hr : r.ends.length = r.next - l.next ∧
      (t.HasEnds l.next r.ends → t.Learned i l.next r.next)) :
    (r.next :: (l.ends ++ r.ends)).length = r.next - i ∧
      (t.HasEnds i (r.next :: (l.ends ++ r.ends)) → t.Learned parent i r.next) := by
  have := l.lt
  have := r.lt
  refine ⟨by rw [List.length_cons, List.length_append, hl.1, hr.1]; omega, fun he => ?_⟩
  have left := hl.2 he.tail.left
  have right : t.Learned i l.next r.next := hr.2 (by
    have := he.tail.right
    rwa [hl.1, show i + 1 + (l.next - (i + 1)) = l.next by omega] at this)
  refine ⟨right.next_le, hp, he.stop, fun j hij hj => ?_⟩
  rcases Nat.eq_or_lt_of_le hij with rfl | hlt
  · exact .two hkind hleft (hright.trans left.stop.symm) ⟨hc, left.parent⟩
      (left.stop.symm ▸ ⟨hd, right.parent⟩) (by rw [left.stop, he.stop, right.stop])
  · rcases Nat.lt_or_ge j l.next with hj' | hj'
    · exact left.shape j hlt hj'
    · exact right.shape j hj' hj

/-- **The walk of a part learns where its nodes lie.** -/
theorem walk_learned (t : Tree) :
    ∀ (n parent i : Nat) (h : i < t.nodes.size) (part : Part i), t.nodes.size - i ≤ n →
      walk t.nodes parent i h = .ok part →
      part.ends.length = part.next - i ∧
        (t.HasEnds i part.ends → t.Learned parent i part.next)
  | 0, parent, i, h, part, hn, hw => by omega
  | n + 1, parent, i, h, part, hn, hw => by
    have hnode : t.nodes[i] = t.node i := by simp [node, h]
    unfold walk at hw
    simp only [hnode] at hw
    split at hw
    · cases hw
    next hp =>
    replace hp := Decidable.not_not.mp hp
    -- the two kinds with two children end alike
    have two (kind : (t.node i).kind = .and ∨ (t.node i).kind = .or ∨ (t.node i).kind = .barrier)
        (hw : (do
          let c ← enter t.nodes i (t.node i).left (i + 1)
          let l ← walk t.nodes i c.1 c.2.2
          let d ← enter t.nodes i (t.node i).right l.next
          let r ← walk t.nodes i d.1 d.2.2
          return (⟨r.next, r.next :: (l.ends ++ r.ends), by
            have := c.2.1
            have := d.2.1
            have := l.lt
            have := r.lt
            omega⟩ : Part i)) = .ok part) :
        part.ends.length = part.next - i ∧
          (t.HasEnds i part.ends → t.Learned parent i part.next) := by
      obtain ⟨⟨c, rfl, hc⟩, hleft, hw₁⟩ := of_bind_ok hw
      obtain ⟨l, hl, hw₂⟩ := of_bind_ok hw₁
      obtain ⟨⟨d, rfl, hd⟩, hright, hw₃⟩ := of_bind_ok hw₂
      obtain ⟨r, hr, hw₄⟩ := of_bind_ok hw₃
      cases hw₄
      have hlt : i + 1 < l.next := l.lt
      exact learned_two hp kind (enter_ok hleft) (enter_ok hright) hc hd
        (walk_learned t n i (i + 1) _ l (by omega) hl)
        (walk_learned t n i l.next hd r (by omega) hr)
    split at hw
    · next kind =>
      split at hw
      · cases hw
      next hc =>
      simp only [ne_eq, not_or, Decidable.not_not] at hc
      cases hw
      refine ⟨by simp, fun he => ⟨h, hp, he.stop, fun j hij hj => ?_⟩⟩
      obtain rfl : j = i := by dsimp only at hj; omega
      exact .leaf kind hc.1 hc.2 he.stop
    · next kind =>
      split at hw
      · cases hw
      next hright =>
      obtain ⟨⟨c, rfl, hc⟩, hleft, hw₁⟩ := of_bind_ok hw
      obtain ⟨l, hl, hw₂⟩ := of_bind_ok hw₁
      cases hw₂
      exact learned_one hp (.inl kind) (enter_ok hleft) (Decidable.not_not.mp hright) hc
        (walk_learned t n i (i + 1) _ l (by omega) hl)
    · next kind =>
      by_cases hright : (t.node i).right = 0
      · simp only [hright, if_true] at hw
        obtain ⟨⟨c, rfl, hc⟩, hleft, hw₁⟩ := of_bind_ok hw
        obtain ⟨l, hl, hw₂⟩ := of_bind_ok hw₁
        cases hw₂
        exact learned_one hp (.inr kind) (enter_ok hleft) hright hc
          (walk_learned t n i (i + 1) _ l (by omega) hl)
      · simp only [hright, if_false] at hw
        exact two (.inr (.inr kind)) hw
    · next kind => exact two (.inl kind) hw
    · next kind => exact two (.inr (.inl kind)) hw

/-- **An accepted array is a valid tree.** -/
theorem valid_of_ofNodes {nodes : Array TreeNode} (h : ofNodes nodes = .ok t) :
    t.nodes = nodes ∧ t.Valid := by
  unfold ofNodes at h
  split at h
  · next hpos =>
    obtain ⟨part, hpart, h'⟩ := of_bind_ok h
    split at h'
    · next hnext =>
      cases h'
      obtain ⟨hlen, hlearned⟩ := walk_learned ⟨nodes, part.ends.toArray⟩ _ _ _ hpos part
        (Nat.le_refl _) hpart
      have learned := hlearned fun k hk => by simp
      refine ⟨rfl, hpos, by simp only [List.size_toArray, hlen, size]; omega, fun i hi => ?_,
        learned.parent, by rw [learned.stop, hnext]; rfl⟩
      exact learned.shape i (Nat.zero_le i) (hnext ▸ hi)
    · cases h'
  · cases h

end Tree

end Sift.Resolution
