import Sift.Proofs.Plan.Origin

/-!
# All parts of a plan

`Node.parts` lists what there is in one scope. `Node.everyPart` lists what there is in the bodies of
loops as well, and `Scopes` tells which scopes there are and what is around them.

Outlines have leaves within loops too (`Outline.every`). What is built of a leaf marks, all in all,
just the buckets of the leaves in it (`Part.Built.tasks_perm`), and each scope is built of an
outline that lies within the outline of the root (`Scopes.origin`).
-/

namespace Sift

open Resolution
open Plan (Formula)

/-! ## 1. Tasks -/

/-- What a bucket is there for. -/
inductive Task
  | test (bucket : Nat)
  | loop (bucket : Nat)
  deriving DecidableEq, Repr

/-- The bucket of a test. -/
def Task.test? : Task → Option Nat
  | .test b => some b
  | .loop _ => none

/-- The bucket of a loop. -/
def Task.loop? : Task → Option Nat
  | .loop b => some b
  | .test _ => none

namespace Part

/-- What a part has to do. -/
def task? : Part → Option Task
  | .slot _ => none
  | .test t | .afterTest t => some (.test t.bucket)
  | .loop l | .afterLoop l => some (.loop l.bucket)

/-- The test that a part is. -/
def test? : Part → Option Test
  | .test t | .afterTest t => some t
  | _ => none

/-- The slots that the operands of a part name. -/
def reads : Part → List Nat
  | .slot _ => []
  | .test t | .afterTest t => t.check.slots
  | .loop l | .afterLoop l => l.target.slots

end Part

/-! ## 2. Parts -/

namespace Node

mutual

/-- **All parts of a node**, those in the bodies of its loops included. -/
def everyPart : Node → List Part
  | ⟨slot, tests, loops, children, afterTests, afterLoops⟩ =>
    own ⟨slot, tests, loops, [], afterTests, afterLoops⟩ ++ everyPartOfAll children ++
      everyPartOfLoops loops ++ everyPartOfLoops afterLoops

/-- All parts of several children. -/
def everyPartOfAll : List (String × Node) → List Part
  | [] => []
  | (_, n) :: rest => n.everyPart ++ everyPartOfAll rest

/-- All parts in the bodies of several loops. -/
def everyPartOfLoops : List Loop → List Part
  | [] => []
  | ⟨_, _, _, body, _⟩ :: rest => body.everyPart ++ everyPartOfLoops rest

end

theorem everyPartOfAll_eq : ∀ children : List (String × Node),
    everyPartOfAll children = children.flatMap fun c => c.2.everyPart
  | [] => rfl
  | (_, _) :: rest => by rw [everyPartOfAll, everyPartOfAll_eq rest, List.flatMap_cons]

theorem everyPartOfLoops_eq : ∀ loops : List Loop,
    everyPartOfLoops loops = loops.flatMap fun l => l.body.everyPart
  | [] => rfl
  | ⟨_, _, _, _, _⟩ :: rest => by rw [everyPartOfLoops, everyPartOfLoops_eq rest, List.flatMap_cons]

theorem everyPart_eq (n : Node) : n.everyPart = n.own ++ everyPartOfAll n.children ++
    everyPartOfLoops n.loops ++ everyPartOfLoops n.afterLoops := by
  cases n
  rw [everyPart]
  rfl

end Node

namespace Part

/-- What is in the body of a part, if it is a loop. -/
def within (part : Part) : List Part := part.loop?.toList.flatMap fun l => l.body.everyPart

/-- A part, and what is in its body. -/
def every (part : Part) : List Part := part :: part.within

end Part

namespace Node

theorem within_own (n : Node) :
    n.own.flatMap Part.within = everyPartOfLoops n.loops ++ everyPartOfLoops n.afterLoops := by
  have none_of {α : Type} (l : List α) : (l.flatMap fun _ => ([] : List Part)) = [] := by
    rw [List.flatMap_eq_nil_iff]
    exact fun _ _ => rfl
  simp only [own, List.flatMap_append, List.flatMap_map, Part.within, Part.loop?,
    Option.toList_none, Option.toList_some, List.flatMap_nil, List.flatMap_cons, List.append_nil,
    none_of, List.nil_append, everyPartOfLoops_eq]

/-- **All parts** are those of the scope, each with what is in its body. -/
theorem everyPart_perm (n : Node) : n.everyPart.Perm (n.parts.flatMap fun p => p.2.every) := by
  induction n using Node.induct with
  | h n children _ _ =>
    have hown : (n.own.flatMap Part.every).Perm
        (n.own ++ (everyPartOfLoops n.loops ++ everyPartOfLoops n.afterLoops)) := by
      have := List.flatMap_append_perm n.own (fun p => [p]) Part.within
      rw [List.flatMap_singleton', within_own] at this
      exact this.symm
    have hchildren : (everyPartOfAll n.children).Perm
        ((partsOfAll n.children).flatMap fun p => p.2.every) := by
      rw [partsOfAll_eq, List.flatMap_assoc, everyPartOfAll_eq]
      refine List.Perm.flatMap_left _ fun c hc => ?_
      rw [List.flatMap_map]
      exact children c hc
    rw [everyPart_eq, parts_eq, List.flatMap_append, List.flatMap_map]
    refine .trans ?_ (hown.symm.append hchildren)
    simp only [List.append_assoc]
    exact (List.perm_append_comm.trans (.of_eq (List.append_assoc _ _ _))).append_left _

end Node

/-! ## 3. Scopes -/

/-- What holds of a node if it holds of the bodies of all loops of its scope holds of every node. -/
theorem Node.induct_scope {P : Node → Prop}
    (h : ∀ n : Node, (∀ p ∈ n.parts, ∀ l, p.2.loop? = some l → P l.body) → P n) : ∀ n, P n := by
  suffices H : ∀ n : Node, P n ∧ ∀ p ∈ n.parts, ∀ l, p.2.loop? = some l → P l.body from
    fun n => (H n).1
  intro n
  induction n using Node.induct with
  | h n children loops afterLoops =>
    have bodies : ∀ p ∈ n.parts, ∀ l, p.2.loop? = some l → P l.body := by
      rintro ⟨q, part⟩ hp l hl
      rcases mem_parts.mp hp with ⟨-, hp⟩ | ⟨c, hc, r, -, hp⟩
      · rcases List.mem_append.mp (mem_allLoops.mpr ⟨part, hp, hl⟩) with hm | hm
        · exact (loops l hm).1
        · exact (afterLoops l hm).1
      · exact (children c hc).2 (r, part) hp l hl
    exact ⟨h n bodies, bodies⟩

/-- **The scopes around a place in the plan**, innermost first and the root last. -/
inductive Scopes (root : Node) : List Node → Prop
  | root : Scopes root [root]
  | body {n : Node} {outer : List Node} {p : Path × Part} {l : Loop} (h : Scopes root (n :: outer))
      (hp : p ∈ n.parts) (hl : p.2.loop? = some l) : Scopes root (l.body :: n :: outer)

namespace Scopes

variable {root : Node} {part : Part}

/-- **What is in the plan is in one of its scopes.** -/
theorem of_everyPart {n : Node} : ∀ {outer : List Node}, Scopes root (n :: outer) →
    part ∈ n.everyPart → ∃ m rest q, Scopes root (m :: rest) ∧ (q, part) ∈ m.parts := by
  induction n using Node.induct_scope with
  | h n ih =>
    intro outer h hpart
    obtain ⟨p, hp, hpart⟩ := List.mem_flatMap.mp (n.everyPart_perm.mem_iff.mp hpart)
    rcases List.mem_cons.mp hpart with rfl | hpart
    · exact ⟨n, outer, p.1, h, hp⟩
    · obtain ⟨l, hl, hpart⟩ := List.mem_flatMap.mp hpart
      have hl := Option.mem_toList.mp hl
      exact ih p hp l hl (h.body hp hl) hpart

end Scopes

namespace Node

variable {n : Node} {l : Loop} {s : Nat}

/-- All loops of a node, those in the bodies of others included. -/
def everyLoop (n : Node) : List Loop := n.everyPart.filterMap Part.loop?

/-- **Every loop** is one of the scope, or in the body of one. -/
theorem mem_everyLoop : l ∈ n.everyLoop ↔
    ∃ p ∈ n.parts, ∃ k, p.2.loop? = some k ∧ (l = k ∨ l ∈ k.body.everyLoop) := by
  have every (part : Part) : (∃ other ∈ part.every, other.loop? = some l) ↔
      ∃ k, part.loop? = some k ∧ (l = k ∨ l ∈ k.body.everyLoop) := by
    simp only [Part.every, Part.within, List.mem_cons, List.mem_flatMap, Option.mem_toList,
      exists_eq_or_imp, everyLoop, List.mem_filterMap]
    constructor
    · rintro (hl | ⟨other, ⟨k, hk, ho⟩, hl⟩)
      · exact ⟨l, hl, .inl rfl⟩
      · exact ⟨k, hk, .inr ⟨other, ho, hl⟩⟩
    · rintro ⟨k, hk, rfl | ⟨other, ho, hl⟩⟩
      · exact .inl hk
      · exact .inr ⟨other, ⟨k, hk, ho⟩, hl⟩
  rw [everyLoop, List.mem_filterMap]
  simp only [n.everyPart_perm.mem_iff, List.mem_flatMap]
  constructor
  · rintro ⟨part, ⟨p, hp, hm⟩, hl⟩
    exact ⟨p, hp, (every p.2).mp ⟨part, hm, hl⟩⟩
  · rintro ⟨p, hp, hk⟩
    obtain ⟨part, hm, hl⟩ := (every p.2).mpr hk
    exact ⟨part, ⟨p, hp, hm⟩, hl⟩

/-- The loops of a node itself, and those in their bodies. -/
theorem everyLoop_of_own {k : Loop} (hk : k ∈ n.allLoops) (hl : l = k ∨ l ∈ k.body.everyLoop) :
    l ∈ n.everyLoop := by
  obtain ⟨part, hp, hk⟩ := mem_allLoops.mp hk
  exact mem_everyLoop.mpr ⟨([], part), mem_parts_of_own hp, k, hk, hl⟩

theorem everyLoop_of_child {c : String × Node} (hc : c ∈ n.children) (hl : l ∈ c.2.everyLoop) :
    l ∈ n.everyLoop := by
  obtain ⟨p, hp, hk⟩ := mem_everyLoop.mp hl
  exact mem_everyLoop.mpr ⟨(c.1 :: p.1, p.2), mem_parts_of_child hc hp, hk⟩

/-- The loops in the body of a loop are loops of the node too. -/
theorem everyLoop_trans {k : Loop} (n : Node) : k ∈ n.everyLoop → l ∈ k.body.everyLoop →
    l ∈ n.everyLoop := by
  induction n using Node.induct_scope with
  | h n ih =>
    intro hk hl
    obtain ⟨p, hp, outer, houter, hk⟩ := mem_everyLoop.mp hk
    refine mem_everyLoop.mpr ⟨p, hp, outer, houter, .inr ?_⟩
    rcases hk with rfl | hk
    · exact hl
    · exact ih p hp outer houter hk hl

/-- What fits a node of its own loops fits those of its whole scope. -/
theorem Fits.loop_of_parts {c : Course} {stall : Option Nat} (n : Node) : n.Fits c stall →
    ∀ p ∈ n.parts, p.2.loop? = some l →
      c.LoopFits stall l ∧ l.body.Fits c (some l.bucket) ∧ ∀ s ∈ l.locals, s ∈ l.body.slots := by
  induction n using Node.induct with
  | h n children _ _ =>
    rintro hf ⟨q, part⟩ hp hl
    rcases mem_parts.mp hp with ⟨-, hp⟩ | ⟨c, hc, r, -, hp⟩
    · exact hf.loop (mem_allLoops.mpr ⟨part, hp, hl⟩)
    · exact children c hc (hf.child hc) (r, part) hp hl

/-- **In a node that fits, every loop does**, under some stall. -/
theorem Fits.everyLoop {c : Course} (n : Node) : ∀ {stall : Option Nat}, n.Fits c stall →
    l ∈ n.everyLoop → ∃ stall, c.LoopFits stall l ∧ l.body.Fits c (some l.bucket) ∧
      ∀ s ∈ l.locals, s ∈ l.body.slots := by
  induction n using Node.induct_scope with
  | h n ih =>
    intro stall hf hl
    obtain ⟨p, hp, k, hk, hl⟩ := mem_everyLoop.mp hl
    have hfits := hf.loop_of_parts n p hp hk
    rcases hl with rfl | hl
    · exact ⟨stall, hfits⟩
    · exact ih p hp k hk hfits.2.1 hl

/-- In a tidy node, the bodies of all loops are. -/
theorem Tidy.everyLoop (n : Node) : n.Tidy → l ∈ n.everyLoop → l.body.Tidy := by
  induction n using Node.induct_scope with
  | h n ih =>
    intro ht hl
    obtain ⟨p, hp, k, hk, hl⟩ := mem_everyLoop.mp hl
    have hbody := (ht.parts n p hp k hk).2
    rcases hl with rfl | hl
    · exact hbody
    · exact ih p hp k hk hbody hl

/-- **A slot of a tidy node** has its place in the node, or is one that a loop empties. -/
theorem Tidy.place_of_slot (n : Node) : n.Tidy → s ∈ n.slots →
    (∃ path, (s, path) ∈ n.places) ∨ ∃ l ∈ n.everyLoop, s ∈ l.locals := by
  induction n using Node.induct_scope with
  | h n ih =>
    intro ht hs
    obtain ⟨⟨q, part⟩, hp, hs⟩ := List.mem_flatMap.mp (n.slots_perm.mem_iff.mp hs)
    cases hl : part.loop? with
    | some l =>
      rw [Part.slots_of_loop hl] at hs
      obtain ⟨hlocals, hbody⟩ := ht.parts n _ hp l hl
      rcases ih _ hp l hl hbody hs with hplace | ⟨k, hk, hs⟩
      · exact .inr ⟨l, mem_everyLoop.mpr ⟨_, hp, l, hl, .inl rfl⟩, (hlocals s).mpr hplace⟩
      · exact .inr ⟨k, mem_everyLoop.mpr ⟨_, hp, l, hl, .inr hk⟩, hs⟩
    | none =>
      cases part with
      | slot s' =>
        cases List.mem_singleton.mp hs
        exact .inl ⟨q, mem_places_iff.mpr hp⟩
      | test _ | afterTest _ => cases hs
      | loop _ | afterLoop _ => cases hl

end Node

/-! ## 4. Outlines with all their leaves -/

namespace Outline

/-- **The leaves of an outline, and those in its loops**, each with its bucket. -/
def every : Outline → (i : Nat) → List (Nat × Outline)
  | .test e, i => [(i, .test e)]
  | .loop mode var target body inside, i =>
    (i, .loop mode var target body inside) :: inside.every (i + 1)
  | .not a, i => a.every (i + 1)
  | .and a b, i | .or a b, i | .both a b, i => a.every (i + 1) ++ b.every (i + 1 + a.size)

/-- What is to be done for a leaf. -/
def task (l : Nat × Outline) : Task :=
  match l.2 with
  | .loop .. => .loop l.1
  | _ => .test l.1

/-- All leaves are those that are in no loop, each with what is in it. -/
theorem every_eq : ∀ (o : Outline) (i : Nat), o.every i = (o.leaves i).flatMap fun l => l.2.every l.1
  | .test _, _ => rfl
  | .loop .., _ => (List.append_nil _).symm
  | .not a, i => every_eq a (i + 1)
  | .and a b, i | .or a b, i | .both a b, i => by
    rw [every, every_eq a, every_eq b, leaves, List.flatMap_append]

theorem mem_every {o : Outline} {i : Nat} {l : Nat × Outline} :
    l ∈ o.every i ↔ ∃ l' ∈ o.leaves i, l ∈ l'.2.every l'.1 := by
  rw [every_eq, List.mem_flatMap]

/-- Leaves that are in loops have buckets of the outline as well. -/
theorem range_of_every {l : Nat × Outline} : ∀ {o : Outline} {i : Nat}, l ∈ o.every i →
    i ≤ l.1 ∧ l.1 < i + o.size
  | .test _, _, h => by
    rw [List.mem_singleton.mp h]
    exact ⟨Nat.le_refl _, Nat.lt_succ_self _⟩
  | .loop _ _ _ _ inside, i, h => by
    simp only [size, formula, Formula.size]
    rcases List.mem_cons.mp h with rfl | h
    · exact ⟨Nat.le_refl _, by omega⟩
    · have := range_of_every (o := inside) h
      simp only [size] at this
      omega
  | .not a, i, h => by
    have := range_of_every (o := a) h
    simp only [size, formula, Formula.size] at this ⊢
    omega
  | .and a b, i, h | .or a b, i, h | .both a b, i, h => by
    simp only [size, formula, Formula.size]
    rcases List.mem_append.mp h with h | h
    · have := range_of_every h
      simp only [size] at this
      omega
    · have := range_of_every h
      simp only [size] at this
      omega

theorem every_pairwise : ∀ (o : Outline) (i : Nat), (o.every i).Pairwise fun l l' => l.1 < l'.1
  | .test _, _ => List.pairwise_singleton _ _
  | .loop _ _ _ _ inside, i =>
    List.pairwise_cons.mpr ⟨fun _ h => (range_of_every h).1, every_pairwise inside (i + 1)⟩
  | .not a, i => every_pairwise a (i + 1)
  | .and a b, _ | .or a b, _ | .both a b, _ =>
    List.pairwise_append.mpr ⟨every_pairwise a _, every_pairwise b _, fun _ hl _ hl' =>
      Nat.lt_of_lt_of_le (range_of_every hl).2 (range_of_every hl').1⟩

/-- **A bucket has one leaf.** -/
theorem eq_of_every {o o₁ o₂ : Outline} {i b : Nat} (h₁ : (b, o₁) ∈ o.every i)
    (h₂ : (b, o₂) ∈ o.every i) : o₁ = o₂ := by
  have hn : ((o.every i).map (·.1)).Nodup :=
    List.pairwise_map.mpr ((o.every_pairwise i).imp Nat.ne_of_lt)
  exact congrArg Prod.snd (List.inj_on_of_nodup_map hn h₁ h₂ rfl)

/-- All that is to be done for an outline. -/
def tasks (o : Outline) (i : Nat) : List Task := (o.every i).map task

end Outline

/-! ## 5. What is built of leaves -/

/-- Two lists agree if they do in what tells the elements of the one apart. -/
theorem perm_of_map_perm {α β : Type} {f : α → β} {l l' : List α} (hsub : l ⊆ l')
    (hp : (l.map f).Perm (l'.map f)) (hd : (l'.map f).Nodup) : l.Perm l' := by
  have hl : l.Nodup := (hp.nodup_iff.mpr hd).of_map
  refine (List.subperm_of_subset hl hsub).perm_of_length_le (Nat.le_of_eq ?_)
  rw [← List.length_map (f := f), ← hp.length_eq, List.length_map]

theorem filterMap_eq_map_filter {α β : Type} {f : α → Option β} {g : α → β} : ∀ {l : List α},
    (∀ a ∈ l, ∀ b, f a = some b → b = g a) →
      l.filterMap f = (l.filter fun a => (f a).isSome).map g
  | [], _ => rfl
  | a :: rest, h => by
    have ih := filterMap_eq_map_filter fun a' ha' => h a' (List.mem_cons_of_mem _ ha')
    cases hf : f a with
    | none => simp [hf, ih]
    | some b => simp [hf, ih, h a List.mem_cons_self b hf]

theorem flatMap_eq_filter {α β : Type} {p : α → Bool} {f : α → List β} : ∀ {l : List α},
    (∀ a ∈ l, p a = false → f a = []) → l.flatMap f = (l.filter p).flatMap f
  | [], _ => rfl
  | a :: rest, h => by
    have ih := flatMap_eq_filter fun a' ha' => h a' (List.mem_cons_of_mem _ ha')
    cases hp : p a with
    | false => simp [hp, ih, h a List.mem_cons_self hp]
    | true => simp [hp, ih]

theorem Part.works_iff {part : Part} : part.Works ↔ part.bucket?.isSome = true := by
  cases part with
  | slot s => exact ⟨fun h => absurd rfl (h s), nofun⟩
  | test _ | loop _ | afterTest _ | afterLoop _ => exact ⟨fun _ => rfl, fun _ => nofun⟩

section Tasks

variable {kit : Toolkit} {Γ : Homes} {n : Node} {o : Outline} {i : Nat}

/-- **A node does what its leaves ask for** if each of its parts does. -/
theorem Node.tasks_of_origin {origin : Path × Part → Nat × Outline}
    (mem : ∀ p ∈ n.parts, p.2.Works → origin p ∈ o.leaves i)
    (bucket : ∀ p ∈ n.parts, p.2.Works → p.2.bucket? = some (origin p).1)
    (covers : n.buckets.Perm ((o.leaves i).map (·.1)))
    (tasks : ∀ p ∈ n.parts, p.2.Works →
      (p.2.every.filterMap Part.task?).Perm ((origin p).2.tasks (origin p).1)) :
    (n.everyPart.filterMap Part.task?).Perm (o.tasks i) := by
  have hworks {p : Path × Part} (hp : p ∈ n.parts.filter fun p => p.2.bucket?.isSome) :
      p ∈ n.parts ∧ p.2.Works := by
    rw [List.mem_filter] at hp
    exact ⟨hp.1, Part.works_iff.mpr hp.2⟩
  have hleaves : ((n.parts.filter fun p => p.2.bucket?.isSome).map origin).Perm (o.leaves i) := by
    refine perm_of_map_perm (f := (·.1)) (fun l hl => ?_) ?_ (o.leaves_nodup i)
    · obtain ⟨p, hp, rfl⟩ := List.mem_map.mp hl
      exact mem p (hworks hp).1 (hworks hp).2
    · rw [List.map_map, ← filterMap_eq_map_filter fun p hp b hb => ?_]
      · exact n.buckets_perm.symm.trans covers
      · have := bucket p hp (Part.works_iff.mpr (Option.isSome_iff_exists.mpr ⟨b, hb⟩))
        rw [hb] at this
        exact Option.some.inj this
  have hslots : (n.parts.flatMap fun p => p.2.every.filterMap Part.task?) =
      (n.parts.filter fun p => p.2.bucket?.isSome).flatMap
        fun p => p.2.every.filterMap Part.task? := by
    refine flatMap_eq_filter fun p _ hp => ?_
    obtain ⟨q, part⟩ := p
    cases part with
    | slot _ => rfl
    | test _ | loop _ | afterTest _ | afterLoop _ => cases hp
  have htasks : o.tasks i = (o.leaves i).flatMap fun l => l.2.tasks l.1 := by
    rw [Outline.tasks, Outline.every_eq, List.map_flatMap]
    rfl
  rw [htasks]
  refine (n.everyPart_perm.filterMap _).trans ?_
  rw [List.filterMap_flatMap, hslots]
  refine .trans ?_ (hleaves.flatMap_right _)
  rw [List.flatMap_map]
  exact List.Perm.flatMap_left _ fun p hp => tasks p (hworks hp).1 (hworks hp).2

/-- **What is built of a leaf does what the leaf asks for**, and nothing else. -/
theorem Part.Built.tasks_perm {q : Path} {part : Part} {b : Nat} (h : part.Built kit Γ q b o) :
    (part.every.filterMap Part.task?).Perm (o.tasks b) := by
  induction h with
  | test | afterTest => exact .refl _
  | loop _ origin mem built covers ih =>
    refine List.Perm.cons _ (.trans (.of_eq ?_)
      (Node.tasks_of_origin mem (fun p hp hw => (built p hp hw).bucket) covers ih))
    rw [Part.within]
    simp [Part.loop?]
  | afterLoop _ _ origin mem built covers ih =>
    refine List.Perm.cons _ (.trans (.of_eq ?_)
      (Node.tasks_of_origin mem (fun p hp hw => (built p hp hw).bucket) covers ih))
    rw [Part.within]
    simp [Part.loop?]

/-- **A node that is built of the leaves of an outline does all that is to be done for it.** -/
theorem Node.BuiltOf.tasks_perm (h : n.BuiltOf kit Γ (o.leaves i)) :
    (n.everyPart.filterMap Part.task?).Perm (o.tasks i) := by
  obtain ⟨origin, mem, built⟩ := h.origin
  exact tasks_of_origin mem (fun p hp hw => (built p hp hw).bucket) h.covers
    fun p hp hw => (built p hp hw).tasks_perm

end Tasks

/-! ## 6. What the scopes are built of -/

/-- **The node of a scope is built of an outline**, which begins at bucket `i` of a tree. -/
structure Node.Renders (kit : Toolkit) (t : Tree) (Γ : Homes) (n : Node) (o : Outline) (i : Nat) :
    Prop where
  laid : o.formula.Laid t i
  built : n.BuiltOf kit Γ (o.leaves i)
  tidy : n.Tidy

section Renders

variable {kit : Toolkit} {t : Tree} {Γ : Homes} {n : Node} {o : Outline} {i : Nat}
  {p : Path × Part} {l : Loop}

/-- **The body of a loop is built of the outline inside the leaf** that the loop is built of. -/
theorem Node.Renders.body (h : n.Renders kit t Γ o i) (hp : p ∈ n.parts) (hl : p.2.loop? = some l) :
    ∃ (var : Variable) (f : Field) (body : Expr),
      (l.bucket, .loop l.mode var (.field f) body body.outline) ∈ o.leaves i ∧
        l.body.Renders kit t ((var, l.body.places) :: Γ) body.outline (l.bucket + 1) := by
  have hw : p.2.Works := fun s hs => by
    rw [hs] at hl
    cases hl
  obtain ⟨leaf, hleaf, hb⟩ := h.built.built p hp hw
  have hlaid := Outline.leaf_laid h.laid hleaf
  have htidy := (h.tidy.parts _ p hp l hl).2
  obtain ⟨q, part⟩ := p
  obtain ⟨b, leaf⟩ := leaf
  cases hb with
  | test | afterTest => cases hl
  | @loop _ _ mode var f body _ _ _ origin mem built covers =>
    cases hl
    exact ⟨var, f, body, hleaf, hlaid.2.2.2.2,
      ⟨fun p hp hw => ⟨origin p, mem p hp hw, built p hp hw⟩, covers⟩, htidy⟩
  | @afterLoop _ _ _ mode var f body _ _ _ _ origin mem built covers =>
    cases hl
    exact ⟨var, f, body, hleaf, hlaid.2.2.2.2,
      ⟨fun p hp hw => ⟨origin p, mem p hp hw, built p hp hw⟩, covers⟩, htidy⟩

/-- A slot that a part names has been given to a field. -/
theorem Part.Built.home {q : Path} {part : Part} {b s : Nat} (h : part.Built kit Γ q b o)
    (hs : s ∈ part.reads) : ∃ f, Home Γ f s := by
  cases h with
  | test _ _ serves | afterTest _ _ serves =>
    obtain ⟨f, -, -, hf⟩ := serves.slots s hs
    exact ⟨f, hf⟩
  | loop => cases hs
  | @afterLoop _ _ _ _ _ f _ _ _ _ home =>
    rw [List.mem_singleton.mp hs]
    exact ⟨f, home⟩

/-- The slot of a field is one of those given to a variable. -/
theorem Home.mem {f : Field} {s : Nat} : ∀ {Γ : Homes}, Home Γ f s →
    ∃ places ∈ Γ.map (·.2), (s, f.path) ∈ places
  | [], h => h.elim
  | (var, places) :: rest, h => by
    rw [Home] at h
    split at h
    · exact ⟨places, List.mem_cons_self, h⟩
    · obtain ⟨places', hm, hs⟩ := Home.mem h
      exact ⟨places', List.mem_cons_of_mem _ hm, hs⟩

/-- **Every scope is built of an outline**, which lies within that of the root, and the slots that
    have been given around it are those of the scopes around it. -/
theorem Scopes.origin {root : Node} {var : Variable}
    (hroot : root.Renders kit t [(var, root.places)] o i) {scopes : List Node}
    (h : Scopes root scopes) : ∀ n outer, scopes = n :: outer → ∃ Γ o' i', n.Renders kit t Γ o' i' ∧
      Γ.map (·.2) = scopes.map Node.places ∧ o'.every i' ⊆ o.every i := by
  induction h with
  | root =>
    intro n outer he
    cases he
    exact ⟨_, o, i, hroot, rfl, fun _ h => h⟩
  | body _ hp hl ih =>
    intro n outer he
    cases he
    obtain ⟨Γ, o', i', hn, hplaces, hsub⟩ := ih _ _ rfl
    obtain ⟨var', f, body, hleaf, hbody⟩ := hn.body hp hl
    refine ⟨_, _, _, hbody, congrArg _ hplaces, fun l' hl' => hsub ?_⟩
    exact Outline.mem_every.mpr ⟨_, hleaf, List.mem_cons_of_mem _ hl'⟩

end Renders

end Sift
