import Sift.Proofs.Plan.Origin

/-!
# What a step of compiling adds to a draft

A step that succeeds leads from a draft to a draft, and `Yields d m Q` says that `Q` holds of what
comes of it then. Two things are always the same. The draft stays good (`Draft.Good`): no slot is
given twice, and the loops that there are, are right. And the draft only grows: the scopes may gain
slots, and the innermost gains parts that are built of leaves (`Draft.Adds`). What is there stays
and is still built of what it was, so the steps of compiling add up (`Draft.Adds.trans`).
-/

namespace Sift.Plan

/-! ## 1. Steps -/

section Yields

variable {α β : Type} {d : Draft}

/-- **If the step succeeds**, `Q` holds of its result and of the draft that it leads to. -/
def Yields (d : Draft) (m : Compile α) (Q : α → Draft → Prop) : Prop :=
  ∀ a d', m.run d = .ok (a, d') → Q a d'

variable {m : Compile α} {Q : α → Draft → Prop}

theorem Yields.mono {Q' : α → Draft → Prop} (h : Yields d m Q) (hq : ∀ a d', Q a d' → Q' a d') :
    Yields d m Q' := fun a d' hr => hq a d' (h a d' hr)

/-- One step after the other. -/
theorem Yields.bind {f : α → Compile β} {Q' : β → Draft → Prop} (h : Yields d m Q)
    (hf : ∀ a d', Q a d' → Yields d' (f a) Q') : Yields d (m >>= f) Q' := by
  intro b d'' hr
  rw [StateT.run_bind] at hr
  cases hm : m.run d with
  | error e =>
    rw [hm] at hr
    cases hr
  | ok r =>
    rw [hm] at hr
    exact hf _ _ (h _ _ hm) b d'' hr

theorem yields_pure {a : α} (h : Q a d) : Yields d (pure a) Q := by
  intro _ _ hr
  cases hr
  exact h

theorem yields_throw {e : CompileError} : Yields d (throw e) Q := nofun

theorem yields_get {Q : Draft → Draft → Prop} (h : Q d d) : Yields d get Q := by
  intro _ _ hr
  cases hr
  exact h

theorem yields_set {d' : Draft} {Q : PUnit → Draft → Prop} (h : Q ⟨⟩ d') :
    Yields d (set d') Q := by
  intro _ _ hr
  cases hr
  exact h

theorem yields_modify {f : Draft → Draft} {Q : Unit → Draft → Prop} (h : Q () (f d)) :
    Yields d (modify f) Q := by
  intro _ _ hr
  cases hr
  exact h

theorem yields_map {f : α → β} {Q : β → Draft → Prop} (h : Yields d m fun a => Q (f a)) :
    Yields d (f <$> m) Q := by
  rw [← bind_pure_comp]
  exact h.bind fun _ _ hq => yields_pure hq

theorem yields_nextBucket {Q : Nat → Draft → Prop}
    (h : Q d.buckets { d with buckets := d.buckets + 1 }) : Yields d nextBucket Q := by
  intro _ _ hr
  cases hr
  exact h

end Yields

/-! ## 2. Good drafts -/

namespace Draft

/-- The slots that have been given to fields. -/
def homes (d : Draft) : Homes := d.scopes.map fun sc => (sc.var, sc.node.places)

/-- The slots of all scopes. -/
def used (d : Draft) : List Nat := d.scopes.flatMap fun sc => sc.node.slots

/-- **A good draft**, while the slots in `kept` are in use elsewhere. -/
structure Good (kept : List Nat) (d : Draft) : Prop where
  ne : d.scopes ≠ []
  named : ∀ sc ∈ d.scopes, sc.node.Named
  slots : (kept ++ d.used).Nodup
  /-- All slots that have been given are in use. -/
  given : ∀ s, s ∈ kept ++ d.used ↔ s < d.slots
  locals : ∀ sc ∈ d.scopes, ∀ s, s ∈ sc.slots ↔ ∃ path, (s, path) ∈ sc.node.places
  loops : ∀ sc ∈ d.scopes, ∀ p ∈ sc.node.parts, p.2.Tidy

variable {kept : List Nat} {d d' : Draft}

/-- The number of buckets does not matter. -/
theorem Good.of_scopes {e : Draft} (h : d.Good kept) (hs : e.scopes = d.scopes)
    (hn : e.slots = d.slots) : e.Good kept := by
  cases d
  cases e
  cases hs
  cases hn
  exact ⟨h.ne, h.named, h.slots, h.given, h.locals, h.loops⟩

/-- In a good draft the nodes of scopes are tidy. -/
theorem Good.tidy (h : d.Good kept) {sc : Scope} (hm : sc ∈ d.scopes) : sc.node.Tidy :=
  sc.node.tidy_of_parts (h.named sc hm)
    ((List.nodup_flatMap.mp h.slots.of_append_right).1 sc hm) (h.loops sc hm)

end Draft

/-! ## 3. Adding a part -/

/-- A part is added to a scope. -/
structure Scope.Gains (q : Path) (part : Part) (sc sc' : Scope) : Prop where
  var : sc'.var = sc.var
  named : sc.node.Named → sc'.node.Named
  parts : sc'.node.parts.Perm ((q, part) :: sc.node.parts)
  slots : ∀ s, s ∈ sc'.slots ↔ s ∈ sc.slots ∨ part = .slot s

namespace Scope.Gains

variable {q : Path} {part : Part} {sc sc' : Scope}

theorem mem_parts (h : sc.Gains q part sc') {p : Path × Part} :
    p ∈ sc'.node.parts ↔ p = (q, part) ∨ p ∈ sc.node.parts := by
  rw [h.parts.mem_iff, List.mem_cons]

theorem slots_perm (h : sc.Gains q part sc') :
    sc'.node.slots.Perm (part.slots ++ sc.node.slots) := by
  refine (sc'.node.slots_perm.trans (h.parts.flatMap_right _)).trans ?_
  rw [List.flatMap_cons]
  exact sc.node.slots_perm.symm.append_left _

theorem locals (h : sc.Gains q part sc') {s : Nat}
    (hs : s ∈ sc.slots ↔ ∃ path, (s, path) ∈ sc.node.places) :
    s ∈ sc'.slots ↔ ∃ path, (s, path) ∈ sc'.node.places := by
  rw [h.slots, hs]
  simp only [Node.mem_places_iff, h.mem_parts]
  constructor
  · rintro (⟨path, hp⟩ | rfl)
    · exact ⟨path, .inr hp⟩
    · exact ⟨q, .inl rfl⟩
  · rintro ⟨path, he | hp⟩
    · cases he
      exact .inr rfl
    · exact .inl ⟨path, hp⟩

end Scope.Gains

namespace Draft

variable {kept : List Nat} {d d' : Draft} {q : Path} {part : Part} {sc sc' : Scope}
  {l rest : List Scope}

theorem used_perm (hs : d.scopes = l ++ sc :: rest) (hs' : d'.scopes = l ++ sc' :: rest)
    (hg : sc.Gains q part sc') : d'.used.Perm (part.slots ++ d.used) := by
  rw [used, used, hs, hs']
  simp only [List.flatMap_append, List.flatMap_cons]
  rw [List.perm_iff_count]
  intro s
  have := (List.perm_iff_count.mp hg.slots_perm) s
  simp only [List.count_append] at *
  omega

/-- **A good draft stays good** if it gains a part whose slots have been kept for it. -/
theorem Good.gain (h : d.Good (part.slots ++ kept)) (hs : d.scopes = l ++ sc :: rest)
    (hs' : d'.scopes = l ++ sc' :: rest) (hn : d'.slots = d.slots)
    (hg : sc.Gains q part sc') (ht : part.Tidy) : d'.Good kept := by
  have hperm : (kept ++ d'.used).Perm (part.slots ++ kept ++ d.used) := by
    refine ((used_perm hs hs' hg).append_left kept).trans ?_
    rw [← List.append_assoc]
    exact List.perm_append_comm.append_right _
  have mem {sc₁ : Scope} (hm : sc₁ ∈ d'.scopes) : sc₁ = sc' ∨ sc₁ ∈ d.scopes := by
    rw [hs'] at hm
    rw [hs]
    simp only [List.mem_append, List.mem_cons] at hm ⊢
    tauto
  have hsc : sc ∈ d.scopes := by
    rw [hs]
    exact List.mem_append_right _ List.mem_cons_self
  refine ⟨by rw [hs']; simp, fun sc₁ hm => ?_, hperm.nodup_iff.mpr h.slots,
    fun s => by rw [hn, ← h.given, hperm.mem_iff], fun sc₁ hm s => ?_, fun sc₁ hm p hp => ?_⟩
  · rcases mem hm with rfl | hm
    · exact hg.named (h.named sc hsc)
    · exact h.named sc₁ hm
  · rcases mem hm with rfl | hm
    · exact hg.locals (h.locals sc hsc s)
    · exact h.locals sc₁ hm s
  · rcases mem hm with rfl | hm
    · rcases hg.mem_parts.mp hp with rfl | hp
      · exact ht
      · exact h.loops sc hsc p hp
    · exact h.loops sc₁ hm p hp

end Draft

/-! ## 4. Growing drafts -/

/-- A scope gains parts, of which `new` holds if they are not slots, and with them the buckets
    `added`. -/
structure Scope.Grows (new : Path × Part → Prop) (added : List Nat) (sc sc' : Scope) : Prop where
  var : sc'.var = sc.var
  old : ∀ p ∈ sc.node.parts, p ∈ sc'.node.parts
  new : ∀ p ∈ sc'.node.parts, p.2.Works → p ∈ sc.node.parts ∨ new p
  buckets : sc'.node.buckets.Perm (added ++ sc.node.buckets)

namespace Scope.Grows

variable {new new' : Path × Part → Prop} {added added' : List Nat} {sc sc' sc'' : Scope}

theorem refl (sc : Scope) : sc.Grows new [] sc :=
  ⟨rfl, fun _ h => h, fun _ h _ => .inl h, .refl _⟩

theorem mono (h : sc.Grows new added sc') (hn : ∀ p, new p → new' p) : sc.Grows new' added sc' :=
  ⟨h.var, h.old, fun p hp hw => (h.new p hp hw).imp_right (hn p), h.buckets⟩

theorem trans (h : sc.Grows new added sc') (h' : sc'.Grows new added' sc'') :
    sc.Grows new (added ++ added') sc'' where
  var := h'.var.trans h.var
  old p hp := h'.old p (h.old p hp)
  new p hp hw := (h'.new p hp hw).elim (fun hp => h.new p hp hw) .inr
  buckets := by
    refine (h'.buckets.trans (h.buckets.append_left _)).trans ?_
    rw [← List.append_assoc]
    exact List.perm_append_comm.append_right _

theorem of_gains {q : Path} {part : Part} (h : sc.Gains q part sc')
    (ha : added = part.bucket?.toList) (hn : part.Works → new (q, part)) :
    sc.Grows new added sc' where
  var := h.var
  old _ hp := h.mem_parts.mpr (.inr hp)
  new p hp hw := by
    rcases h.mem_parts.mp hp with rfl | hp
    · exact .inr (hn hw)
    · exact .inl hp
  buckets := by
    refine (sc'.node.buckets_perm.trans (h.parts.filterMap _)).trans ?_
    rw [ha, List.filterMap_cons]
    cases part.bucket? with
    | none => exact sc.node.buckets_perm.symm
    | some b => exact sc.node.buckets_perm.symm.cons b

end Scope.Grows

namespace Draft

/-- **Scopes gain slots, and the innermost parts that are built of leaves.** -/
inductive Adds (kit : Toolkit) (leaves : List (Nat × Outline)) (d d' : Draft) : Prop
  | mk {sc sc' : Scope} {rest rest' : List Scope} (scopes : d.scopes = sc :: rest)
      (scopes' : d'.scopes = sc' :: rest')
      (inner : sc.Grows (fun p => ∃ l ∈ leaves, p.2.Built kit d'.homes p.1 l.1 l.2)
        (leaves.map (·.1)) sc')
      (outer : List.Forall₂ (Scope.Grows (fun _ => False) []) rest rest')

variable {kit : Toolkit} {d d' d'' : Draft} {leaves leaves' : List (Nat × Outline)}

theorem Adds.scopes (h : d.Adds kit leaves d') :
    List.Forall₂ (fun sc sc' => ∃ new added, sc.Grows new added sc') d.scopes d'.scopes := by
  obtain ⟨hs, hs', hin, hout⟩ := h
  rw [hs, hs']
  exact .cons ⟨_, _, hin⟩ (hout.imp fun _ _ h => ⟨_, _, h⟩)

/-- No slot is taken from a field. -/
theorem Adds.grown (h : d.Adds kit leaves d') : Grown d.homes d'.homes := by
  rw [Grown, homes, homes, List.forall₂_map_left_iff, List.forall₂_map_right_iff]
  refine h.scopes.imp fun sc sc' ⟨_, _, hg⟩ => ⟨hg.var.symm, fun p hp => ?_⟩
  exact Node.mem_places_iff.mpr (hg.old _ (Node.mem_places_iff.mp hp))

theorem Adds.of_scopes (h : d'.Adds kit leaves d'') (hs : d'.scopes = d.scopes) :
    d.Adds kit leaves d'' := by
  obtain ⟨hs', hs'', hin, hout⟩ := h
  exact ⟨hs.symm.trans hs', hs'', hin, hout⟩

/-- A draft to which only slots are added. -/
theorem adds_nil (hne : d.scopes ≠ [])
    (h : List.Forall₂ (Scope.Grows (fun _ => False) []) d.scopes d'.scopes) : d.Adds kit [] d' := by
  cases hs : d.scopes with
  | nil => exact absurd hs hne
  | cons sc rest =>
    rw [hs] at h
    cases hs' : d'.scopes with
    | nil =>
      rw [hs'] at h
      cases h
    | cons sc' rest' =>
      rw [hs'] at h
      cases h with
      | cons hin hout => exact ⟨hs, hs', hin.mono fun _ => False.elim, hout⟩

theorem Adds.refl (hne : d.scopes ≠ []) : d.Adds kit [] d :=
  adds_nil hne (List.forall₂_same.mpr fun sc _ => .refl sc)

/-- **What is added adds up.** -/
theorem Adds.trans (h : d.Adds kit leaves d') (h' : d'.Adds kit leaves' d'') :
    d.Adds kit (leaves ++ leaves') d'' := by
  have hgrown := h'.grown
  obtain ⟨hs, hs', hin, hout⟩ := h
  obtain ⟨hs₁, hs₁', hin', hout'⟩ := h'
  obtain ⟨rfl, rfl⟩ := List.cons.inj (hs'.symm.trans hs₁)
  refine ⟨hs, hs₁', List.map_append ▸ (hin.mono ?_).trans (hin'.mono ?_), ?_⟩
  · rintro p ⟨l, hl, hb⟩
    exact ⟨l, List.mem_append_left _ hl, hb.mono hgrown⟩
  · rintro p ⟨l, hl, hb⟩
    exact ⟨l, List.mem_append_right _ hl, hb⟩
  · refine List.forall₂_iff_get.mpr ⟨hout.length_eq.trans hout'.length_eq, fun i h₁ h₂ => ?_⟩
    have hi := hout.length_eq ▸ h₁
    exact (hout.get h₁ hi).trans (hout'.get hi h₂)

end Draft

end Sift.Plan
