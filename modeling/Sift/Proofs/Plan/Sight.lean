import Sift.Proofs.Plan.Compiled

/-!
# What a node sees

A test and a loop of a node look at slots of their own scope and of those around it, and never at
one in the body of a loop. `Node.Sees t R n` says that all that the node looks at is in `R`, that
what its loops capture for themselves is not, and that no two parts of it have a bucket in common.
So what a node does depends on the slots in `R` alone, and running a loop changes none of them.

A part that is built of a leaf sees the slots that have been given to fields
(`Part.Built.sees`), and the root of a compiled plan its own (`Plan.Compiled.sees`).
-/

namespace Sift

open Resolution

/-! ## 1. Sight -/

/-- What is seen in the body of a loop: what is seen outside, and the slots of its own scope. -/
def Loop.sight (R : Nat → Prop) (l : Loop) (s : Nat) : Prop := R s ∨ ∃ path, (s, path) ∈ l.body.places

/-- A test at a leaf of the tree that looks at the slots in `R`. -/
structure Test.Sees (t : Tree) (R : Nat → Prop) (q : Test) : Prop where
  reads : ∀ s ∈ q.check.slots, R s
  leaf : (t.node q.bucket).kind = .leaf

/-- **A node looks at the slots in `R`**, its loops capture others, and all its buckets are
    different. -/
inductive Node.Sees (t : Tree) : (R : Nat → Prop) → Node → Prop
  | mk {R : Nat → Prop} {n : Node} (slot : ∀ s, n.slot = some s → R s)
      (tests : ∀ q ∈ n.allTests, q.Sees t R)
      (targets : ∀ l ∈ n.afterLoops, ∀ s, l.target = .slot s → R s)
      (hidden : ∀ l ∈ n.allLoops, ∀ s ∈ l.body.slots, ¬ R s)
      (buckets : n.buckets.Nodup)
      (bodies : ∀ l ∈ n.allLoops, l.body.Sees t (l.sight R))
      (children : ∀ c ∈ n.children, c.2.Sees t R) : n.Sees t R

namespace Node.Sees

variable {t : Tree} {R : Nat → Prop} {n : Node}

theorem slot (h : n.Sees t R) : ∀ s, n.slot = some s → R s := by cases h; assumption

theorem test (h : n.Sees t R) {q : Test} (hq : q ∈ n.allTests) : q.Sees t R := by
  cases h with
  | mk _ tests => exact tests q hq

theorem target (h : n.Sees t R) {l : Loop} (hl : l ∈ n.afterLoops) :
    ∀ s, l.target = .slot s → R s := by
  cases h with
  | mk _ _ targets => exact targets l hl

theorem hidden (h : n.Sees t R) {l : Loop} (hl : l ∈ n.allLoops) : ∀ s ∈ l.body.slots, ¬ R s := by
  cases h with
  | mk _ _ _ hidden => exact hidden l hl

theorem buckets (h : n.Sees t R) : n.buckets.Nodup := by cases h; assumption

theorem body (h : n.Sees t R) {l : Loop} (hl : l ∈ n.allLoops) : l.body.Sees t (l.sight R) := by
  cases h with
  | mk _ _ _ _ _ bodies => exact bodies l hl

theorem child (h : n.Sees t R) {c : String × Node} (hc : c ∈ n.children) : c.2.Sees t R := by
  cases h with
  | mk _ _ _ _ _ _ children => exact children c hc

end Node.Sees

/-! ## 2. Parts -/

/-- A loop that captures nothing in `R`, over a body that sees no more than it may. -/
structure Loop.Sees (t : Tree) (R : Nat → Prop) (l : Loop) : Prop where
  hidden : ∀ s ∈ l.body.slots, ¬ R s
  body : l.body.Sees t (l.sight R)

/-- A part looks at the slots in `R`. -/
def Part.Sees (t : Tree) (R : Nat → Prop) : Part → Prop
  | .slot s => R s
  | .test q | .afterTest q => q.Sees t R
  | .loop l => l.Sees t R
  | .afterLoop l => l.Sees t R ∧ ∀ s, l.target = .slot s → R s

namespace Node

variable {t : Tree} {R : Nat → Prop} {n : Node}

theorem sees_of_parts : n.buckets.Nodup → (∀ p ∈ n.parts, p.2.Sees t R) → n.Sees t R := by
  induction n using Node.induct with
  | h n children _ _ =>
    intro hd h
    have own (part : Part) (hp : part ∈ n.own) : part.Sees t R := h _ (mem_parts_of_own hp)
    have loop {l : Loop} (hl : l ∈ n.allLoops) : l.Sees t R := by
      rcases List.mem_append.mp hl with hl | hl
      · exact own (.loop l) (mem_own.mpr hl)
      · exact (own (.afterLoop l) (mem_own.mpr hl)).1
    refine .mk (fun s hs => own (.slot s) (mem_own.mpr hs)) (fun q hq => ?_)
      (fun l hl => (own (.afterLoop l) (mem_own.mpr hl)).2) (fun l hl => (loop hl).hidden) hd
      (fun l hl => (loop hl).body) fun c hc => ?_
    · rcases List.mem_append.mp hq with hq | hq
      · exact own (.test q) (mem_own.mpr hq)
      · exact own (.afterTest q) (mem_own.mpr hq)
    · refine children c hc ?_ fun p hp => h (c.1 :: p.1, p.2) (mem_parts_of_child hc hp)
      rw [buckets_eq] at hd
      exact (List.nodup_flatMap.mp hd.of_append_right).1 c hc

/-- **What has a place in a node is in the body of no loop.** -/
theorem Tidy.place_apart_of_part (h : n.Tidy) {s : Nat} {path : Path} (hs : (s, path) ∈ n.places)
    {p : Path × Part} (hp : p ∈ n.parts) {l : Loop} (hl : p.2.loop? = some l) :
    s ∉ l.body.slots := by
  have hnodup := n.slots_perm.nodup_iff.mp h.slots
  have hslots : p.2.slots = l.body.slots := by
    obtain ⟨q, part⟩ := p
    cases part with
    | loop _ | afterLoop _ =>
      cases hl
      rfl
    | slot _ | test _ | afterTest _ => cases hl
  rw [← hslots]
  refine not_mem_of_disjoint hnodup (mem_places_iff.mp hs) hp ?_ (List.mem_singleton.mpr rfl)
  rintro rfl
  cases hl

end Node

/-! ## 3. What is built of a leaf -/

/-- **The part sees no more than `R`**, if that has the slots given to fields and none that is in the
    body of a loop. -/
def Part.SeesAs (t : Tree) (Γ : Homes) (part : Part) (b : Nat) (o : Outline) : Prop :=
  ∀ R : Nat → Prop, o.formula.Laid t b → (∀ f s, Home Γ f s → R s) →
    (∀ l, part.loop? = some l → ∀ s ∈ l.body.slots, ¬ R s) → part.Tidy → part.Sees t R

/-- A loop sees what the parts of its body see. -/
theorem Loop.sees_of_body {t : Tree} {Γ : Homes} {l : Loop} {var : Variable} {body : Outline}
    {origin : Path × Part → Nat × Outline}
    (mem : ∀ p ∈ l.body.parts, p.2.Works → origin p ∈ body.leaves (l.bucket + 1))
    (covers : l.body.buckets.Perm ((body.leaves (l.bucket + 1)).map (·.1)))
    (ih : ∀ p ∈ l.body.parts, p.2.Works →
      p.2.SeesAs t ((var, l.body.places) :: Γ) (origin p).1 (origin p).2)
    {R : Nat → Prop} (hbody : body.formula.Laid t (l.bucket + 1))
    (hhome : ∀ f s, Home Γ f s → R s) (hhidden : ∀ s ∈ l.body.slots, ¬ R s) (ht : l.body.Tidy) :
    l.Sees t R := by
  refine ⟨hhidden, Node.sees_of_parts (covers.nodup_iff.mpr (body.leaves_nodup _)) fun p hp => ?_⟩
  by_cases hw : p.2.Works
  · refine ih p hp hw _ (Outline.leaf_laid hbody (mem p hp hw)) (fun f s hs => ?_)
      (fun l' hl' s hs => ?_) (ht.parts _ p hp)
    · rw [Home] at hs
      split at hs
      · exact .inr ⟨_, hs⟩
      · exact .inl (hhome f s hs)
    · have hslots : s ∈ p.2.slots := by
        cases hp2 : p.2 with
        | loop _ | afterLoop _ =>
          rw [hp2] at hl'
          cases hl'
          exact hs
        | slot _ | test _ | afterTest _ =>
          rw [hp2] at hl'
          cases hl'
      rintro (hR | ⟨path, hplace⟩)
      · exact hhidden s (Node.mem_slots_of_part hp hslots) hR
      · exact ht.place_apart_of_part hplace hp hl' hs
  · obtain ⟨s, hs⟩ := not_forall_not.mp hw
    rw [hs]
    exact .inr ⟨p.1, Node.mem_places_iff.mpr (hs ▸ hp)⟩

theorem Check.Serves.sees {kit : Toolkit} {Γ : Homes} {active : Option Path} {check : Check}
    {e : Expr} {R : Nat → Prop} (h : check.Serves kit Γ active e)
    (hhome : ∀ f s, Home Γ f s → R s) : ∀ s ∈ check.slots, R s := fun s hs => by
  obtain ⟨f, -, -, hf⟩ := h.slots s hs
  exact hhome f s hf

/-- **A part that is built of a leaf** sees the slots given to fields. -/
theorem Part.Built.sees {kit : Toolkit} {t : Tree} {Γ : Homes} {q : Path} {part : Part} {b : Nat}
    {o : Outline} (h : part.Built kit Γ q b o) : part.SeesAs t Γ b o := by
  induction h with
  | test _ _ serves | afterTest _ _ serves =>
    intro R hl hhome _ _
    exact ⟨serves.sees hhome, hl.2⟩
  | loop _ origin mem _ covers ih =>
    intro R hl hhome hhidden hok
    exact Loop.sees_of_body mem covers ih hl.2.2.2.2 hhome (hhidden _ rfl) (hok _ rfl).2
  | afterLoop _ home origin mem _ covers ih =>
    intro R hl hhome hhidden hok
    refine ⟨Loop.sees_of_body mem covers ih hl.2.2.2.2 hhome (hhidden _ rfl) (hok _ rfl).2,
      fun s hs => ?_⟩
    cases hs
    exact hhome _ _ home

/-! ## 4. Compiled plans -/

namespace Plan

/-- The slots of the document itself. -/
def sight (p : Plan) (s : Nat) : Prop := ∃ path, (s, path) ∈ p.root.places

/-- **The root of a compiled plan** sees its own slots. -/
theorem Compiled.sees {kit : Toolkit} {p : Plan} {es : List Expr} (h : p.Compiled kit es) :
    p.root.Sees p.tree p.sight := by
  refine Node.sees_of_parts (h.built.covers.nodup_iff.mpr (Outline.leaves_nodup _ _)) fun q hq => ?_
  by_cases hw : q.2.Works
  · obtain ⟨l, hl, hb⟩ := h.built.built q hq hw
    refine hb.sees _ (Outline.leaf_laid h.laid hl) (fun f s hs => ?_) (fun l' hl' s hs hR => ?_)
      (h.tidy.parts _ q hq)
    · rw [Home] at hs
      split at hs
      · exact ⟨_, hs⟩
      · exact hs.elim
    · obtain ⟨path, hplace⟩ := hR
      exact h.tidy.place_apart_of_part hplace hq hl' hs
  · obtain ⟨s, hs⟩ := not_forall_not.mp hw
    rw [hs]
    exact ⟨q.1, Node.mem_places_iff.mpr (hs ▸ hq)⟩

end Plan

end Sift
