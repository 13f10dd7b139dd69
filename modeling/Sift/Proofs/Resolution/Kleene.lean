import Mathlib
import Sift.Proofs.Resolution.Evidence

/-!
# Strong Kleene logic

While only some leaves and barriers of a tree have values, a node may be determined by its children
or not. What it is then is its value in strong Kleene logic, `Tree.kleene`:

* `Tree.kleene_mono`: a node that is determined stays determined when more is known;
* `Tree.kleene_total`: once everything is known, each node has its truth value;
* `Record.Faithful.offer`: what one mark keeps of a record of marks, and `Record.Faithful.offerAll`
  what any number of them keep;
* `Record.offers_tell_kleene`: whatever is marked in whatever order, each node that no value above it
  covers holds exactly its strong Kleene value.
-/

namespace Sift.Resolution

/-! ## 1. Three values -/

/-- A truth value, or none as long as it is undetermined. -/
abbrev Kleene := Option Bool

namespace Kleene

/-- A false part determines a conjunction, and otherwise both parts must be known. -/
def and : Kleene → Kleene → Kleene
  | some false, _ => some false
  | _, some false => some false
  | some true, some true => some true
  | _, _ => none

/-- A true part determines a disjunction, and otherwise both parts must be known. -/
def or : Kleene → Kleene → Kleene
  | some true, _ => some true
  | _, some true => some true
  | some false, some false => some false
  | _, _ => none

def not : Kleene → Kleene
  | some b => some !b
  | none => none

/-- Where the one is determined, the other is and is the same. -/
def Le (x y : Kleene) : Prop := ∀ b, x = some b → y = some b

variable {x y x' y' : Kleene}

theorem and_eq_true : ∀ {x y}, and x y = some true ↔ x = some true ∧ y = some true := by decide

theorem and_eq_false : ∀ {x y}, and x y = some false ↔ x = some false ∨ y = some false := by decide

theorem or_eq_true : ∀ {x y}, or x y = some true ↔ x = some true ∨ y = some true := by decide

theorem or_eq_false : ∀ {x y}, or x y = some false ↔ x = some false ∧ y = some false := by decide

theorem and_mono (hx : Le x x') (hy : Le y y') : Le (and x y) (and x' y')
  | true, h => and_eq_true.mpr ((and_eq_true.mp h).imp (hx true) (hy true))
  | false, h => and_eq_false.mpr ((and_eq_false.mp h).imp (hx false) (hy false))

theorem or_mono (hx : Le x x') (hy : Le y y') : Le (or x y) (or x' y')
  | true, h => or_eq_true.mpr ((or_eq_true.mp h).imp (hx true) (hy true))
  | false, h => or_eq_false.mpr ((or_eq_false.mp h).imp (hx false) (hy false))

theorem not_mono (hx : Le x x') : Le (not x) (not x') := fun b h => by
  cases x with
  | none => cases h
  | some a =>
    rw [hx a rfl]
    exact h

theorem and_some (a b : Bool) : and (some a) (some b) = some (a && b) := by
  cases a <;> cases b <;> rfl

theorem or_some (a b : Bool) : or (some a) (some b) = some (a || b) := by
  cases a <;> cases b <;> rfl

end Kleene

/-! ## 2. The values of a tree -/

namespace Tree

/-- A node that is marked directly, and gets nothing from children. -/
structure IsTip (t : Tree) (i : Nat) : Prop where
  lt : i < t.size
  kind : (t.node i).kind = .leaf ∨ (t.node i).kind = .barrier

/-- The value of a node whose children have those of `v`, or whose own is that of `given`. -/
def kleeneOf (t : Tree) (given v : Nat → Kleene) (i : Nat) : Kleene :=
  match (t.node i).kind with
  | .and => Kleene.and (v (t.node i).left) (v (t.node i).right)
  | .or => Kleene.or (v (t.node i).left) (v (t.node i).right)
  | .not => Kleene.not (v (t.node i).left)
  | .leaf | .barrier => given i

/-- **The strong Kleene value of a node**, where leaves and barriers have those of `given`. A barrier
    has its own whatever lies below it. -/
def kleene (t : Tree) (given : Nat → Kleene) (i : Nat) : Kleene :=
  t.kleeneOf given (fun c => if _h : i < c ∧ c < t.size then kleene t given c else none) i
termination_by t.size - i

variable {t : Tree} {given given' v v' : Nat → Kleene} {i : Nat}

theorem kleeneOf_of_tip (h : t.IsTip i) : t.kleeneOf given v i = given i := by
  rw [kleeneOf]
  rcases h.kind with hk | hk <;> rw [hk]

theorem kleeneOf_mono (h : t.Valid) (hi : i < t.size) (hg : Kleene.Le (given i) (given' i))
    (hv : ∀ c, (t.node i).left = c ∨ (t.node i).right = c → c ≠ 0 → Kleene.Le (v c) (v' c)) :
    Kleene.Le (t.kleeneOf given v i) (t.kleeneOf given' v' i) := by
  unfold kleeneOf
  split
  · next hk =>
    obtain ⟨hl, hr⟩ := h.two_children hi (.inl hk)
    exact Kleene.and_mono (hv _ (.inl rfl) (by omega)) (hv _ (.inr rfl) (by omega))
  · next hk =>
    obtain ⟨hl, hr⟩ := h.two_children hi (.inr hk)
    exact Kleene.or_mono (hv _ (.inl rfl) (by omega)) (hv _ (.inr rfl) (by omega))
  · next hk =>
    have hl := h.first_child hi (.inl hk)
    exact Kleene.not_mono (hv _ (.inl rfl) (by omega))
  · exact hg
  · exact hg

/-- Each node has the value that those of its children give it. -/
theorem kleene_eq (h : t.Valid) (hi : i < t.size) :
    t.kleene given i = t.kleeneOf given (t.kleene given) i := by
  rw [kleene]
  unfold kleeneOf
  split
  · next hk =>
    obtain ⟨hl, hr⟩ := h.two_children hi (.inl hk)
    simp only [dif_pos hl, dif_pos hr]
  · next hk =>
    obtain ⟨hl, hr⟩ := h.two_children hi (.inr hk)
    simp only [dif_pos hl, dif_pos hr]
  · next hk => simp only [dif_pos (h.first_child hi (.inl hk))]
  · rfl
  · rfl

/-- **What is determined stays determined** when more is known. -/
theorem kleene_mono (h : t.Valid) (hg : ∀ i, Kleene.Le (given i) (given' i)) :
    ∀ i, i < t.size → Kleene.Le (t.kleene given i) (t.kleene given' i) := by
  refine backward fun i hi ih => ?_
  rw [kleene_eq h hi, kleene_eq h hi]
  refine kleeneOf_mono h hi (hg i) fun c hc h0 => ?_
  obtain ⟨hbelow, -, hchild⟩ := h.child_below hi hc h0
  exact ih c (isBelow_iff.mp hbelow).1 hchild.lt

/-- **Once everything is known** each node has its truth value. -/
theorem kleene_total (h : t.Valid) (truth : Nat → Bool) : ∀ i, i < t.size →
    t.kleene (fun j => some (truth j)) i = some (t.truth truth i) := by
  have hc := consistent_truth h truth
  refine backward fun i hi ih => ?_
  rw [kleene_eq h hi, kleeneOf]
  split
  · next hk =>
    obtain ⟨hl, hr⟩ := h.two_children hi (.inl hk)
    rw [ih _ hl.1 hl.2, ih _ hr.1 hr.2, Kleene.and_some, hc.and i hi hk]
  · next hk =>
    obtain ⟨hl, hr⟩ := h.two_children hi (.inr hk)
    rw [ih _ hl.1 hl.2, ih _ hr.1 hr.2, Kleene.or_some, hc.or i hi hk]
  · next hk =>
    have hl := h.first_child hi (.inl hk)
    rw [ih _ hl.1 hl.2, hc.not i hi hk]
    rfl
  · next hk => rw [truth_of_leaf (.inl hk)]
  · next hk => rw [truth_of_leaf (.inr hk)]

/-- A value that is determined early is the truth value in the end. -/
theorem truth_of_kleene (h : t.Valid) {truth : Nat → Bool} {b : Bool}
    (hg : ∀ j, Kleene.Le (given j) (some (truth j))) (hi : i < t.size)
    (hb : t.kleene given i = some b) : t.truth truth i = b := by
  have := kleene_mono h hg i hi b hb
  rw [kleene_total h truth i hi] at this
  exact Option.some.inj this

end Tree

/-! ## 3. Marks -/

/-- The value that a mark is, if it is one. -/
def Mark.value? : Mark → Kleene
  | .value b => some b
  | .unknown | .resolved => none

/-- The mark of a node that is not covered by a value above it. -/
def Mark.ofKleene : Kleene → Mark
  | some b => .value b
  | none => .unknown

theorem Mark.value?_eq_some {m : Mark} {b : Bool} : m.value? = some b ↔ m = .value b := by
  cases m with
  | value a => exact Option.some_inj.trans (by rw [Mark.value.injEq])
  | unknown | resolved => exact ⟨nofun, nofun⟩

namespace State

variable {s : State} {i : Nat}

theorem conjunction?_eq (l r : Mark) : conjunction? l r = Kleene.and l.value? r.value? := by
  rcases l with _ | _ | _ | _ <;> rcases r with _ | _ | _ | _ <;> rfl

theorem disjunction?_eq (l r : Mark) : disjunction? l r = Kleene.or l.value? r.value? := by
  rcases l with _ | _ | _ | _ <;> rcases r with _ | _ | _ | _ <;> rfl

theorem negation?_eq (m : Mark) : negation? m = Kleene.not m.value? := by
  cases m <;> rfl

/-- **A node is determined by the marks of its children** as it is in strong Kleene logic; that a child
    is resolved says nothing of its value. -/
theorem combine?_eq (s : State) (i : Nat) :
    s.combine? i = s.tree.kleeneOf (fun _ => none) (fun c => (s.get c).value?) i := by
  unfold combine? Tree.kleeneOf
  dsimp only
  cases (s.tree.node i).kind with
  | and => exact conjunction?_eq _ _
  | or => exact disjunction?_eq _ _
  | not => exact negation?_eq _
  | leaf => rfl
  | barrier => rfl

end State

/-! ## 4. Records -/

/-- A state, and the values that its nodes have been marked with. -/
structure Record where
  state : State
  marked : Nat → Kleene

namespace Record

/-- Nothing has been marked. -/
def fresh (t : Tree) : Record := ⟨.fresh t, fun _ => none⟩

/-- Marks a node with a value, if nothing is known of it yet. -/
def offer (r : Record) (m : Nat × Bool) : Record :=
  match r.state.mark m.1 m.2 with
  | .ok s => ⟨s, Function.update r.marked m.1 (some m.2)⟩
  | .error _ => r

/-- One after the other. -/
def offerAll (r : Record) (ms : List (Nat × Bool)) : Record := ms.foldl offer r

variable {t : Tree} {r : Record} {ms : List (Nat × Bool)} {m : Nat × Bool} {i : Nat} {b : Bool}

/-- What holds of a record after the offers `ms`, at every moment. -/
structure Faithful (t : Tree) (ms : List (Nat × Bool)) (r : Record) : Prop where
  good : State.Good (fun _ => True) r.state
  tree : r.state.tree = t
  stall : r.state.stall = none
  tip : ∀ i b, r.marked i = some b → t.IsTip i
  marked : ∀ i b, r.marked i = some b → r.state.get i = .value b
  /-- What has a value has been marked with it, or gets it from its children. -/
  evidence : ∀ i b, r.state.get i = .value b → r.marked i = some b ∨ r.state.combine? i = some b
  /-- A node has been marked, if at all, with what was first offered. -/
  first : ∀ i b, r.marked i = some b → ms.lookup i = some b
  offered : ∀ i b, ms.lookup i = some b → r.state.get i ≠ .unknown

theorem faithful_fresh (h : t.Valid) : Faithful t [] (fresh t) where
  good := State.good_fresh h
  tree := rfl
  stall := rfl
  tip i b h := by cases h
  marked i b h := by cases h
  evidence i b h := by
    rw [fresh, State.get_fresh] at h
    cases h
  first i b h := by cases h
  offered i b h := by cases h

theorem Faithful.within (h : Faithful t ms r) : r.state.Within i := fun k hk => by
  rw [h.stall] at hk
  cases hk

theorem lookup_concat {j : Nat} {c : Bool} : (ms ++ [m]).lookup j = some c ↔
    ms.lookup j = some c ∨ ms.lookup j = none ∧ m = (j, c) := by
  obtain ⟨i, b⟩ := m
  rw [List.lookup_append, List.lookup_cons, List.lookup_nil]
  cases ms.lookup j with
  | some a => simp
  | none =>
    by_cases hj : j = i
    · simp [hj]
    · simp [beq_eq_false_iff_ne.mpr hj, Ne.symm hj]

/-- An offer of what is known. -/
theorem Faithful.offer_known (h : Faithful t ms r) (hk : r.state.get m.1 ≠ .unknown) :
    r.offer m = r ∧ Faithful t (ms ++ [m]) r := by
  refine ⟨by rw [Record.offer, State.mark, if_neg (mt State.isUnknown_iff.mp hk)],
    h.good, h.tree, h.stall, h.tip, h.marked, h.evidence, fun j c hj => ?_, fun j c hj => ?_⟩
  · exact lookup_concat.mpr (.inl (h.first j c hj))
  · rcases lookup_concat.mp hj with hj | ⟨-, rfl⟩
    · exact h.offered j c hj
    · exact hk

/-- An offer of what is unknown. -/
theorem Faithful.offer_unknown (h : Faithful t ms r) (hm : t.IsTip i) (hu : r.state.get i = .unknown)
    (b : Bool) : Faithful t (ms ++ [(i, b)]) (r.offer (i, b)) ∧
      State.Changes r.state (r.offer (i, b)).state := by
  have hi : i < r.state.tree.size := h.tree ▸ hm.lt
  obtain ⟨s', hs, hgood, hch, hv⟩ := State.mark_spec h.good hi h.within hu (fun _ => trivial) b
  have hr : r.offer (i, b) = ⟨s', Function.update r.marked i (some b)⟩ := by
    rw [Record.offer, hs]
  -- what has been marked before is another node
  have other {j : Nat} {c : Bool} (hj : r.marked j = some c) : j ≠ i := fun e => by
    have := h.marked j c hj
    rw [e, hu] at this
    cases this
  have cases {j : Nat} {c : Bool} (hj : Function.update r.marked i (some b) j = some c) :
      j = i ∧ c = b ∨ r.marked j = some c := by
    by_cases hji : j = i
    · subst hji
      rw [Function.update_self] at hj
      exact .inl ⟨rfl, (Option.some.inj hj).symm⟩
    · rw [Function.update_of_ne hji] at hj
      exact .inr hj
  have keep {j : Nat} {c : Bool} (hj : r.state.get j = .value c) : s'.get j = .value c := by
    rw [hch.known j (by rw [hj]; exact Mark.noConfusion), hj]
  rw [hr]
  refine ⟨⟨hgood, hch.tree.trans h.tree, hch.stall.trans h.stall, fun j c hj => ?_,
    fun j c hj => ?_, fun j c hj => ?_, fun j c hj => ?_, fun j c hj => ?_⟩, hch⟩
  · rcases cases hj with ⟨rfl, -⟩ | hj
    · exact hm
    · exact h.tip j c hj
  · rcases cases hj with ⟨rfl, rfl⟩ | hj
    · exact hv
    · exact keep (h.marked j c hj)
  · rcases State.evidence_mark h.good.valid hi hs hj with hj | ⟨rfl, rfl⟩ | hj
    · refine (h.evidence j c hj).imp (fun hmarked => ?_) fun hc => ?_
      · exact (Function.update_of_ne (other hmarked) ..).trans hmarked
      · have hlt := State.lt_size_of_known (show r.state.get j ≠ .unknown by
          rw [hj]; exact Mark.noConfusion)
        exact State.combine?_mono h.good.valid hch.tree (h.good.size ▸ hlt)
          (fun _ _ _ _ => keep) hc
    · exact .inl (Function.update_self ..)
    · exact .inr hj
  · rw [lookup_concat]
    rcases cases hj with ⟨rfl, rfl⟩ | hj
    · refine .inr ⟨?_, rfl⟩
      cases hl : ms.lookup j with
      | none => rfl
      | some a => exact absurd hu (h.offered j a hl)
    · exact .inl (h.first j c hj)
  · rcases lookup_concat.mp hj with hj | ⟨-, he⟩
    · have hk := h.offered j c hj
      rwa [hch.known j hk]
    · cases he
      rw [hv]
      exact Mark.noConfusion

/-- **One offer** keeps records faithful, and changes nothing that is known. -/
theorem Faithful.offer (h : Faithful t ms r) (hm : t.IsTip m.1) :
    Faithful t (ms ++ [m]) (r.offer m) ∧ State.Changes r.state (r.offer m).state := by
  by_cases hu : r.state.get m.1 = .unknown
  · exact h.offer_unknown hm hu m.2
  · obtain ⟨hr, hfaithful⟩ := h.offer_known hu
    rw [hr]
    exact ⟨hfaithful, .refl _⟩

/-- **Any number of offers** keep records faithful, and change nothing that is known. -/
theorem Faithful.offerAll {ms' : List (Nat × Bool)} (h : Faithful t ms r)
    (hms : ∀ m ∈ ms', t.IsTip m.1) :
    Faithful t (ms ++ ms') (r.offerAll ms') ∧ State.Changes r.state (r.offerAll ms').state := by
  induction ms' generalizing ms r with
  | nil =>
    rw [List.append_nil]
    exact ⟨h, .refl _⟩
  | cons m rest ih =>
    obtain ⟨hm, hrest⟩ := List.forall_mem_cons.mp hms
    obtain ⟨h₁, hch₁⟩ := h.offer hm
    obtain ⟨h₂, hch₂⟩ := ih h₁ hrest
    rw [List.append_assoc, List.singleton_append] at h₂
    exact ⟨h₂, hch₁.trans hch₂⟩

/-! ## 5. Marks and values -/

/-- A value is never wrong. -/
theorem Faithful.kleene_of_value (h : Faithful t ms r) : ∀ i, i < t.size → ∀ b,
    r.state.get i = .value b → t.kleene r.marked i = some b := by
  have hv : t.Valid := h.tree ▸ h.good.valid
  refine Tree.backward fun i hi ih b hb => ?_
  rw [Tree.kleene_eq hv hi]
  rcases h.evidence i b hb with hmarked | hc
  · rw [Tree.kleeneOf_of_tip (h.tip i b hmarked), hmarked]
  · rw [State.combine?_eq, h.tree] at hc
    have hnone : Kleene.Le none (r.marked i) := nofun
    refine Tree.kleeneOf_mono hv hi hnone (fun c hchild h0 u hu => ?_) b hc
    obtain ⟨hbelow, -, hchild⟩ := hv.child_below hi hchild h0
    exact ih c (Tree.isBelow_iff.mp hbelow).1 hchild.lt u (Mark.value?_eq_some.mp hu)

/-- **A value is never late**: where no value above covers a node, it has the one it is determined to
    have. -/
theorem Faithful.value_of_kleene (h : Faithful t ms r) : ∀ i, i < t.size →
    (∀ a b, t.isBelow a i = true → r.state.get a ≠ .value b) → ∀ b,
    t.kleene r.marked i = some b → r.state.get i = .value b := by
  have hv : t.Valid := h.tree ▸ h.good.valid
  refine Tree.backward fun i hi ih hclear b hb => ?_
  cases hm : r.state.get i with
  | value c =>
    rw [h.kleene_of_value i hi c hm] at hb
    rw [Option.some.inj hb]
  | resolved =>
    obtain ⟨a, c, hbelow, hc⟩ := h.good.resolved i hm
    exact absurd hc (hclear a c (h.tree ▸ hbelow))
  | unknown =>
    exfalso
    have htree := h.tree
    -- what the children are determined to be they are, and so they would determine the node
    have hc : r.state.combine? i = some b := by
      rw [State.combine?_eq, htree]
      rw [Tree.kleene_eq hv hi] at hb
      refine Tree.kleeneOf_mono hv hi (fun c hc => ?_) (fun c hchild h0 u hu => ?_) b hb
      · rw [h.marked i c hc] at hm
        cases hm
      · obtain ⟨hbelow, -, hchild⟩ := hv.child_below hi hchild h0
        refine Mark.value?_eq_some.mpr (ih c (Tree.isBelow_iff.mp hbelow).1 hchild.lt ?_ u hu)
        intro a w ha hw
        have hp := hv.parent_of_below ha
        rw [hchild.parent] at hp
        rcases hp with rfl | hp
        · rw [hm] at hw
          cases hw
        · exact hclear a w hp hw
    have := h.good.closed i (htree ▸ hi) id hm
    rw [hc] at this
    cases this

/-- A tree without barriers rests on its leaves. -/
theorem rests_on_leaves (h : t.Valid) (hk : ∀ i, i < t.size → (t.node i).kind ≠ .barrier) :
    ∀ i, i < t.size → t.Rests (fun j => j < t.size ∧ (t.node j).kind = .leaf) i := by
  refine Tree.backward fun i hi ih => ?_
  cases hkind : (t.node i).kind with
  | leaf => exact .here ⟨hi, hkind⟩
  | not =>
    have hl := h.first_child hi (.inl hkind)
    exact .not hi hkind (ih _ hl.1 hl.2)
  | and =>
    obtain ⟨hl, hr⟩ := h.two_children hi (.inl hkind)
    exact .both hi (.inl hkind) (ih _ hl.1 hl.2) (ih _ hr.1 hr.2)
  | or =>
    obtain ⟨hl, hr⟩ := h.two_children hi (.inr hkind)
    exact .both hi (.inr hkind) (ih _ hl.1 hl.2) (ih _ hr.1 hr.2)
  | barrier => exact absurd hkind (hk i hi)

/-- What no value above covers holds exactly what it is determined to be. -/
theorem Faithful.get_eq (h : Faithful t ms r) (hi : i < t.size)
    (hclear : ∀ a b, t.isBelow a i = true → r.state.get a ≠ .value b) :
    r.state.get i = .ofKleene (t.kleene r.marked i) := by
  cases hk : t.kleene r.marked i with
  | some b => exact h.value_of_kleene i hi hclear b hk
  | none =>
    cases hm : r.state.get i with
    | unknown => rfl
    | value b =>
      rw [h.kleene_of_value i hi b hm] at hk
      cases hk
    | resolved =>
      obtain ⟨a, b, hbelow, hb⟩ := h.good.resolved i hm
      exact absurd hb (hclear a b (h.tree ▸ hbelow))

/-- **Once every leaf has been offered** nothing of a tree without barriers is unknown, and its root
    has its truth value. -/
theorem Faithful.whole (h : Faithful t ms r) (hk : ∀ i, i < t.size → (t.node i).kind ≠ .barrier)
    (hleaf : ∀ i, i < t.size → (t.node i).kind = .leaf → ∃ b, (i, b) ∈ ms) :
    (∀ i, i < t.size → r.state.get i ≠ .unknown) ∧
      ∀ truth : Nat → Bool, (∀ i b, ms.lookup i = some b → truth i = b) →
        r.state.get 0 = .value (t.truth truth 0) := by
  have hv : t.Valid := h.tree ▸ h.good.valid
  have hknown : ∀ i, i < t.size → r.state.get i ≠ .unknown := fun i hi => by
    have hrests : r.state.tree.Rests (fun j => j < t.size ∧ (t.node j).kind = .leaf) i := by
      rw [h.tree]
      exact rests_on_leaves hv hk i hi
    refine State.known_of_rests h.good (fun j hj => ?_) hrests
    obtain ⟨b, hb⟩ := hleaf j hj.1 hj.2
    cases hl : ms.lookup j with
    | some c => exact h.offered j c hl
    | none =>
      have := List.lookup_eq_none_iff.mp hl _ hb
      simp at this
  refine ⟨hknown, fun truth htruth => ?_⟩
  have h0 := h.get_eq hv.pos fun a b ha => absurd (Tree.isBelow_iff.mp ha).1 (by omega)
  cases hk : t.kleene r.marked 0 with
  | none =>
    rw [hk] at h0
    exact absurd h0 (hknown 0 hv.pos)
  | some b =>
    have hg : ∀ j, Kleene.Le (r.marked j) (some (truth j)) := fun j c hc => by
      rw [htruth j c (h.first j c hc)]
    rw [h0, hk, Tree.truth_of_kleene hv hg hv.pos hk]
    rfl

/-- **In any order of marks a tree computes strong Kleene logic**. Whatever leaves and barriers are
    offered values in whatever order:

    * a node that no value above covers has its strong Kleene value, if it is determined, and is
      unknown otherwise;
    * what is resolved lies below a value, and nothing below a value is unknown;
    * what is known never changes again;
    * without barriers, once every leaf has been offered a value, nothing is unknown, and the root has
      the truth value that goes with what the leaves were first offered. -/
theorem offers_tell_kleene {nodes : Array TreeNode} (h : Tree.ofNodes nodes = .ok t)
    (hms : ∀ m ∈ ms, t.IsTip m.1) :
    let r := (fresh t).offerAll ms
    (∀ i, i < t.size → (∀ a b, t.isBelow a i = true → r.state.get a ≠ .value b) →
      r.state.get i = .ofKleene (t.kleene r.marked i)) ∧
    (∀ i, r.state.get i = .resolved → ∃ a b, t.isBelow a i = true ∧ r.state.get a = .value b) ∧
    (∀ a i b, t.isBelow a i = true → r.state.get a = .value b → r.state.get i ≠ .unknown) ∧
    (∀ ms', (∀ m ∈ ms', t.IsTip m.1) → ∀ i, r.state.get i ≠ .unknown →
      (r.offerAll ms').state.get i = r.state.get i) ∧
    ((∀ i, i < t.size → (t.node i).kind ≠ .barrier) →
      (∀ i, i < t.size → (t.node i).kind = .leaf → ∃ b, (i, b) ∈ ms) →
      (∀ i, i < t.size → r.state.get i ≠ .unknown) ∧
        ∀ truth : Nat → Bool, (∀ i b, ms.lookup i = some b → truth i = b) →
          r.state.get 0 = .value (t.truth truth 0)) := by
  intro r
  obtain ⟨hr, -⟩ := (faithful_fresh (Tree.valid_of_ofNodes h).2).offerAll hms
  rw [List.nil_append] at hr
  refine ⟨fun i hi => hr.get_eq hi, fun i hi => ?_, fun a i b hai ha => ?_, fun ms' hms' i hi => ?_,
    hr.whole⟩
  · obtain ⟨a, b, hbelow, hb⟩ := hr.good.resolved i hi
    exact ⟨a, b, hr.tree ▸ hbelow, hb⟩
  · exact hr.good.known a i b (hr.tree.symm ▸ hai) ha
  · exact (hr.offerAll hms').2.known i hi

/-- `a ∧ ¬ b ∨ c`. -/
def oneOrOther : Tree :=
  ⟨#[⟨0, .or, 1, 5⟩, ⟨0, .and, 2, 3⟩, ⟨1, .leaf, 0, 0⟩, ⟨1, .not, 4, 0⟩, ⟨3, .leaf, 0, 0⟩,
    ⟨0, .leaf, 0, 0⟩], #[6, 5, 3, 5, 5, 6]⟩

theorem ofNodes_oneOrOther : Tree.ofNodes oneOrOther.nodes = .ok oneOrOther := by cbv

/-- The last of its leaves is offered a value when it does not matter any more. -/
theorem offers_tell_kleene_oneOrOther :
    ((fresh oneOrOther).offerAll [(4, false), (2, true), (5, false)]).state.get 0 = .value true := by
  have tip (i : Nat) (h : i = 2 ∨ i = 4 ∨ i = 5) : oneOrOther.IsTip i := by
    rcases h with rfl | rfl | rfl <;> exact ⟨by decide, .inl rfl⟩
  have hms : ∀ m ∈ [(4, false), (2, true), (5, false)], oneOrOther.IsTip m.1 := by
    simp [tip]
  obtain ⟨-, -, -, -, hwhole⟩ := offers_tell_kleene ofNodes_oneOrOther hms
  obtain ⟨-, hroot⟩ := hwhole (by decide) (by decide)
  rw [hroot (fun i => ([(4, false), (2, true), (5, false)].lookup i).getD false) fun i b hb => by
    rw [hb]; rfl]
  cbv

end Record

end Sift.Resolution
