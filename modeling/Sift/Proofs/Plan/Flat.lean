import Mathlib.Data.List.Perm.Basic
import Sift.Proofs.Plan.Scene

/-!
# A plan as a list of parts

The nodes of one scope are a tree only because paths share their beginnings. `Node.parts` forgets
the tree: it lists what there is, each with its path. Adding one part to a node adds it to the
list (`Node.parts_modifyAt`), and what has to be shown of a node can be shown of its parts
(`Node.tidy_of_parts`, `Node.fits_of_parts`, `Node.means_of_parts`, `Node.tells_of_parts`).
-/

namespace Sift

/-! ## 1. Parts -/

/-- Something that there is at a node. -/
inductive Part
  | slot (s : Nat)
  | test (t : Test)
  | loop (l : Loop)
  | afterTest (t : Test)
  | afterLoop (l : Loop)

namespace Part

/-- The bucket of a test or a loop. -/
def bucket? : Part → Option Nat
  | .slot _ => none
  | .test t | .afterTest t => some t.bucket
  | .loop l | .afterLoop l => some l.bucket

/-- The loop that a part is. -/
def loop? : Part → Option Loop
  | .loop l | .afterLoop l => some l
  | _ => none

/-- The slots of a part, those in the body of a loop included. -/
def slots : Part → List Nat
  | .slot s => [s]
  | .loop l | .afterLoop l => l.body.slots
  | _ => []

variable {part : Part} {l : Loop}

theorem slots_of_loop (h : part.loop? = some l) : part.slots = l.body.slots := by
  cases part with
  | loop l' | afterLoop l' =>
    cases h
    rfl
  | slot _ | test _ | afterTest _ => cases h

theorem bucket_of_loop (h : part.loop? = some l) : part.bucket? = some l.bucket := by
  cases part with
  | loop l' | afterLoop l' =>
    cases h
    rfl
  | slot _ | test _ | afterTest _ => cases h

end Part

namespace Node

/-- The parts of a node itself. -/
def own (n : Node) : List Part :=
  n.slot.toList.map .slot ++ n.tests.map .test ++ n.loops.map .loop ++
    n.afterTests.map .afterTest ++ n.afterLoops.map .afterLoop

mutual

/-- **The parts of a node and its children**, each with its path. -/
def parts : Node → List (Path × Part)
  | ⟨slot, tests, loops, children, afterTests, afterLoops⟩ =>
    (own ⟨slot, tests, loops, [], afterTests, afterLoops⟩).map ([], ·) ++ partsOfAll children

/-- The parts of several children. -/
def partsOfAll : List (String × Node) → List (Path × Part)
  | [] => []
  | (name, n) :: rest => n.parts.map (fun p => (name :: p.1, p.2)) ++ partsOfAll rest

end

theorem partsOfAll_eq : ∀ children : List (String × Node),
    partsOfAll children = children.flatMap fun c => c.2.parts.map fun p => (c.1 :: p.1, p.2)
  | [] => rfl
  | (_, _) :: rest => by rw [partsOfAll, partsOfAll_eq rest, List.flatMap_cons]

theorem parts_eq (n : Node) : n.parts = n.own.map ([], ·) ++ partsOfAll n.children := by
  cases n
  rw [parts]
  rfl

theorem parts_empty : empty.parts = [] := rfl

variable {n : Node} {q : Path} {part : Part}

theorem mem_parts : (q, part) ∈ n.parts ↔ (q = [] ∧ part ∈ n.own) ∨
    ∃ c ∈ n.children, ∃ r, q = c.1 :: r ∧ (r, part) ∈ c.2.parts := by
  rw [parts_eq, partsOfAll_eq, List.mem_append, List.mem_map, List.mem_flatMap]
  refine or_congr ⟨fun ⟨p, hp, he⟩ => ?_, fun ⟨hq, hp⟩ => ⟨part, hp, by rw [hq]⟩⟩
    (exists_congr fun c => and_congr_right fun _ => ?_)
  · cases he
    exact ⟨rfl, hp⟩
  · rw [List.mem_map]
    constructor
    · rintro ⟨⟨r, p⟩, hp, he⟩
      cases he
      exact ⟨r, rfl, hp⟩
    · rintro ⟨r, rfl, hp⟩
      exact ⟨(r, part), hp, rfl⟩

theorem mem_own : part ∈ n.own ↔ match part with
    | .slot s => n.slot = some s
    | .test t => t ∈ n.tests
    | .loop l => l ∈ n.loops
    | .afterTest t => t ∈ n.afterTests
    | .afterLoop l => l ∈ n.afterLoops := by
  cases part <;> simp [own]

/-- The loops of a node itself. -/
theorem mem_allLoops {l : Loop} : l ∈ n.allLoops ↔ ∃ part ∈ n.own, part.loop? = some l := by
  constructor
  · intro h
    rcases List.mem_append.mp h with h | h
    · exact ⟨.loop l, mem_own.mpr h, rfl⟩
    · exact ⟨.afterLoop l, mem_own.mpr h, rfl⟩
  · rintro ⟨part, hp, hl⟩
    cases part with
    | loop l' =>
      cases hl
      exact List.mem_append_left _ (mem_own.mp hp)
    | afterLoop l' =>
      cases hl
      exact List.mem_append_right _ (mem_own.mp hp)
    | slot _ | test _ | afterTest _ => cases hl

theorem mem_parts_of_own (h : part ∈ n.own) : ([], part) ∈ n.parts := mem_parts.mpr (.inl ⟨rfl, h⟩)

theorem mem_parts_of_child {c : String × Node} (hc : c ∈ n.children) (h : (q, part) ∈ c.2.parts) :
    (c.1 :: q, part) ∈ n.parts := mem_parts.mpr (.inr ⟨c, hc, q, rfl, h⟩)

/-- Slots are parts at their places. -/
theorem mem_places_iff {s : Nat} {path : Path} :
    (s, path) ∈ n.places ↔ (path, .slot s) ∈ n.parts := by
  induction path generalizing n with
  | nil =>
    rw [mem_places, mem_parts, mem_own]
    simp
  | cons name path ih =>
    rw [mem_places, mem_parts]
    simp only [List.cons_ne_nil, and_false, false_or, false_and, List.cons.injEq]
    refine exists_congr fun c => and_congr_right fun _ => exists_congr fun r => ?_
    refine and_congr_right fun he => ?_
    rw [← he.2]
    exact ih

/-- **The buckets of a node are those of its parts**, each as often. -/
theorem buckets_perm (n : Node) : n.buckets.Perm (n.parts.filterMap fun p => p.2.bucket?) := by
  induction n using Node.induct with
  | h n children _ _ =>
    have ownBuckets : (n.own.map (([], ·) : Part → Path × Part)).filterMap (fun p => p.2.bucket?) =
        n.tests.map (·.bucket) ++ n.loops.map (·.bucket) ++ n.afterTests.map (·.bucket) ++
          n.afterLoops.map (·.bucket) := by
      simp [own, List.filterMap_append, List.filterMap_map, Function.comp_def, Part.bucket?,
        List.filterMap_eq_map']
    have childBuckets : (n.children.flatMap fun c => c.2.buckets).Perm
        ((partsOfAll n.children).filterMap fun p => p.2.bucket?) := by
      rw [partsOfAll_eq, List.filterMap_flatMap]
      refine List.Perm.flatMap_left _ fun c hc => ?_
      rw [List.filterMap_map]
      exact children c hc
    rw [buckets_eq, parts_eq, List.filterMap_append, ownBuckets, allTests, allLoops]
    refine List.Perm.append ?_ childBuckets
    simp only [List.map_append, List.append_assoc]
    refine List.Perm.append_left _ ?_
    simp only [← List.append_assoc]
    exact List.perm_append_comm.append_right _

theorem mem_buckets_iff {b : Nat} :
    b ∈ n.buckets ↔ ∃ p ∈ n.parts, p.2.bucket? = some b := by
  rw [n.buckets_perm.mem_iff, List.mem_filterMap]

/-- The loops of a node's scope are parts of it. -/
theorem mem_loopBuckets_iff {b : Nat} :
    b ∈ n.loopBuckets ↔ ∃ p ∈ n.parts, ∃ l, p.2.loop? = some l ∧ l.bucket = b := by
  induction n using Node.induct with
  | h n children _ _ =>
    rw [mem_loopBuckets]
    constructor
    · rintro (⟨l, hl, rfl⟩ | ⟨c, hc, hb⟩)
      · obtain ⟨part, hp, hl⟩ := mem_allLoops.mp hl
        exact ⟨([], part), mem_parts_of_own hp, l, hl, rfl⟩
      · obtain ⟨p, hp, hb⟩ := (children c hc).mp hb
        exact ⟨(c.1 :: p.1, p.2), mem_parts_of_child hc hp, hb⟩
    · rintro ⟨⟨q, part⟩, hp, l, hl, rfl⟩
      rcases mem_parts.mp hp with ⟨-, hp⟩ | ⟨c, hc, r, -, hp⟩
      · exact .inl ⟨l, mem_allLoops.mpr ⟨part, hp, hl⟩, rfl⟩
      · exact .inr ⟨c, hc, (children c hc).mpr ⟨_, hp, l, hl, rfl⟩⟩

/-- The slots of a node are those of its parts. -/
theorem slots_perm (n : Node) : n.slots.Perm (n.parts.flatMap fun p => p.2.slots) := by
  induction n using Node.induct with
  | h n children _ _ =>
    have none_of {α : Type} (l : List α) : (l.flatMap fun _ => ([] : List Nat)) = [] := by
      rw [List.flatMap_eq_nil_iff]
      exact fun _ _ => rfl
    have ownSlots : (n.own.map (([], ·) : Part → Path × Part)).flatMap (fun p => p.2.slots) =
        n.slot.toList ++ (n.loops.flatMap fun l => l.body.slots) ++
          n.afterLoops.flatMap fun l => l.body.slots := by
      simp only [own, List.map_append, List.map_map, List.flatMap_append, List.flatMap_map,
        Function.comp_apply, Part.slots, none_of, List.append_nil, List.flatMap_singleton']
    have childSlots : (n.children.flatMap fun c => c.2.slots).Perm
        ((partsOfAll n.children).flatMap fun p => p.2.slots) := by
      rw [partsOfAll_eq, List.flatMap_assoc]
      refine List.Perm.flatMap_left _ fun c hc => ?_
      rw [List.flatMap_map]
      exact children c hc
    rw [slots_eq, parts_eq, List.flatMap_append, ownSlots,
      List.append_assoc _ _ (n.afterLoops.flatMap _),
      List.append_assoc _ _ (List.flatMap _ (partsOfAll _))]
    exact (List.perm_append_comm.trans (childSlots.append_left _)).append_left _

/-! ## 2. Adding a part -/

theorem child?_mem {name : String} {m : Node} : ∀ {children : List (String × Node)},
    child? name children = some m → (name, m) ∈ children
  | [], h => by cases h
  | (other, n) :: rest, h => by
    rw [child?] at h
    split at h
    · next he =>
      cases h
      rw [he]
      exact List.mem_cons_self
    · exact List.mem_cons_of_mem _ (child?_mem h)

/-- The node at the end of a path. One that is not there yet is empty. -/
def get (n : Node) (path : Path) : Node := (n.at? path).getD empty

theorem get_cons (n : Node) (name : String) (path : Path) :
    n.get (name :: path) = ((child? name n.children).getD empty).get path := by
  rw [get, at?]
  cases child? name n.children with
  | some m => rfl
  | none =>
    cases path with
    | nil => rfl
    | cons _ _ => rfl

theorem parts_modifyChild {name : String} {f : Node → Node} {q : Path} {part : Part} :
    ∀ children : List (String × Node),
    (f ((child? name children).getD empty)).parts.Perm
      ((q, part) :: ((child? name children).getD empty).parts) →
    (partsOfAll (modifyChild name f children)).Perm ((name :: q, part) :: partsOfAll children)
  | [], h => by
    simp only [modifyChild, partsOfAll, List.append_nil]
    exact h.map _
  | (other, n) :: rest, h => by
    rw [child?] at h
    rw [modifyChild]
    split at h
    · next he =>
      subst he
      rw [if_pos rfl, partsOfAll, partsOfAll]
      exact (h.map _).append_right _
    · next he =>
      rw [if_neg he, partsOfAll, partsOfAll]
      exact ((parts_modifyChild rest h).append_left _).trans List.perm_middle

/-- **Adding a part to a node** adds it to the parts. -/
theorem parts_modifyAt {f : Node → Node} {part : Part} (hc : ∀ n, (f n).children = n.children) :
    ∀ (path : Path) (n : Node), (f (n.get path)).own.Perm (part :: (n.get path).own) →
      (modifyAt f path n).parts.Perm ((path, part) :: n.parts)
  | [], n, h => by
    rw [modifyAt, parts_eq, parts_eq n, hc]
    exact (List.Perm.map _ h).append_right _
  | name :: path, n, h => by
    rw [get_cons] at h
    rw [modifyAt, parts_eq, parts_eq n]
    exact ((parts_modifyChild n.children (parts_modifyAt hc path _ h)).append_left _).trans
      List.perm_middle

/-- A part at the end of a path. -/
theorem mem_parts_of_get : ∀ {path : Path} {n : Node}, part ∈ (n.get path).own →
    (path, part) ∈ n.parts
  | [], _, h => mem_parts_of_own h
  | name :: path, n, h => by
    rw [get_cons] at h
    cases hm : child? name n.children with
    | none =>
      rw [hm] at h
      have : (path, part) ∈ empty.parts := mem_parts_of_get h
      rw [parts_empty] at this
      cases this
    | some m =>
      rw [hm] at h
      exact mem_parts_of_child (c := (name, m)) (child?_mem hm) (mem_parts_of_get h)

/-- The child of a name is the one of that name. -/
theorem child?_of_mem {c : String × Node} : ∀ {children : List (String × Node)},
    (children.map (·.1)).Nodup → c ∈ children → child? c.1 children = some c.2
  | (other, n) :: rest, hn, hc => by
    obtain ⟨hnot, hn⟩ := List.nodup_cons.mp hn
    rw [child?]
    rcases List.mem_cons.mp hc with rfl | hc
    · exact if_pos rfl
    · rw [if_neg fun he => hnot (List.mem_map.mpr ⟨c, hc, he.symm⟩)]
      exact child?_of_mem hn hc

/-- **The parts of a tidy node are those at the ends of paths.** -/
theorem Tidy.mem_parts_iff : ∀ {path : Path} {n : Node}, n.Tidy →
    ((path, part) ∈ n.parts ↔ part ∈ (n.get path).own)
  | [], _, _ => by
    refine ⟨fun h => ?_, mem_parts_of_own⟩
    rcases mem_parts.mp h with ⟨-, h⟩ | ⟨_, _, _, hp, -⟩
    · exact h
    · cases hp
  | name :: path, n, ht => by
    refine ⟨fun h => ?_, mem_parts_of_get⟩
    rcases mem_parts.mp h with ⟨hp, -⟩ | ⟨c, hc, r, hp, h⟩
    · cases hp
    · cases hp
      rw [get_cons, child?_of_mem ht.names hc]
      exact (ht.child hc).mem_parts_iff.mp h

/-- Filling the slot of a node that has none. -/
theorem own_slot {s : Nat} (h : n.slot = none) :
    (own { n with slot := some s }).Perm (.slot s :: n.own) := by
  simp only [own, h, Option.toList_some, Option.toList_none, List.map_cons, List.map_nil,
    List.nil_append, List.cons_append]
  exact .refl _

theorem own_test (t : Test) : (own { n with tests := n.tests ++ [t] }).Perm (.test t :: n.own) := by
  simp only [own, List.map_append, List.map_cons, List.map_nil, List.append_assoc,
    List.cons_append, List.nil_append]
  exact (List.perm_middle.append_left _).trans List.perm_middle

theorem own_loop (l : Loop) : (own { n with loops := n.loops ++ [l] }).Perm (.loop l :: n.own) := by
  simp only [own, List.map_append, List.map_cons, List.map_nil, List.append_assoc,
    List.cons_append, List.nil_append]
  exact (((List.perm_middle.append_left _).trans List.perm_middle).append_left _).trans
    List.perm_middle

theorem own_afterTest (t : Test) :
    (own { n with afterTests := n.afterTests ++ [t] }).Perm (.afterTest t :: n.own) := by
  simp only [own, List.map_append, List.map_cons, List.map_nil, ← List.append_assoc]
  simp only [List.append_assoc _ [Part.afterTest t]]
  exact List.perm_middle

theorem own_afterLoop (l : Loop) :
    (own { n with afterLoops := n.afterLoops ++ [l] }).Perm (.afterLoop l :: n.own) := by
  simp only [own, List.map_append, List.map_cons, List.map_nil, ← List.append_assoc]
  exact (List.perm_append_singleton _ _)

/-! ## 3. Names -/

/-- The children of a node have different names, and so have those of its children. -/
inductive Named : Node → Prop
  | mk {n : Node} (names : (n.children.map (·.1)).Nodup)
      (children : ∀ child ∈ n.children, child.2.Named) : n.Named

theorem named_empty : empty.Named := .mk List.nodup_nil nofun

theorem names_modifyChild {name : String} {f : Node → Node} :
    ∀ children : List (String × Node), (modifyChild name f children).map (·.1) =
      if name ∈ children.map (·.1) then children.map (·.1) else children.map (·.1) ++ [name]
  | [] => rfl
  | (other, n) :: rest => by
    rw [modifyChild]
    split
    · next he => simp [he]
    · next he =>
      rw [List.map_cons, names_modifyChild rest, List.map_cons]
      by_cases h : name ∈ rest.map (·.1)
      · rw [if_pos h, if_pos (List.mem_cons_of_mem _ h)]
      · rw [if_neg h, if_neg fun h' => (List.mem_cons.mp h').elim (fun e => he e.symm) h]
        rfl

theorem mem_modifyChild {name : String} {f : Node → Node} {c : String × Node} :
    ∀ {children : List (String × Node)}, c ∈ modifyChild name f children →
      c ∈ children ∨ c.2 = f empty ∨ ∃ c' ∈ children, c.2 = f c'.2
  | [], h => by
    rw [modifyChild, List.mem_singleton] at h
    exact .inr (.inl (by rw [h]))
  | (other, n) :: rest, h => by
    rw [modifyChild] at h
    split at h
    · rcases List.mem_cons.mp h with rfl | h
      · exact .inr (.inr ⟨_, List.mem_cons_self, rfl⟩)
      · exact .inl (List.mem_cons_of_mem _ h)
    · rcases List.mem_cons.mp h with rfl | h
      · exact .inl List.mem_cons_self
      · rcases mem_modifyChild h with h | h | ⟨c', hc, he⟩
        · exact .inl (List.mem_cons_of_mem _ h)
        · exact .inr (.inl h)
        · exact .inr (.inr ⟨c', List.mem_cons_of_mem _ hc, he⟩)

theorem named_modifyAt {f : Node → Node} (hc : ∀ n, (f n).children = n.children) :
    ∀ {path : Path} {n : Node}, n.Named → (modifyAt f path n).Named
  | [], n, .mk names children => by
    rw [modifyAt]
    exact .mk (by rw [hc]; exact names) (by rw [hc]; exact children)
  | name :: path, n, .mk names children => by
    rw [modifyAt]
    refine .mk ?_ fun c hm => ?_
    · simp only [names_modifyChild]
      split
      · exact names
      · next h => exact names.append (List.nodup_singleton _) (by simpa using h)
    · rcases mem_modifyChild hm with hm | hm | ⟨c', hc', hm⟩
      · exact children c hm
      · rw [hm]
        exact named_modifyAt hc named_empty
      · rw [hm]
        exact named_modifyAt hc (children c' hc')

end Node

/-! ## 4. What is shown part by part -/

/-- The loop that a part is, is right, if it is one. -/
def Part.Tidy (part : Part) : Prop :=
  ∀ l, part.loop? = some l →
    (∀ s, s ∈ l.locals ↔ ∃ path, (s, path) ∈ l.body.places) ∧ l.body.Tidy

namespace Node

/-- **A node is tidy** if names and slots are different and the loops are right. -/
theorem tidy_of_parts (n : Node) : n.Named → n.slots.Nodup → (∀ p ∈ n.parts, p.2.Tidy) →
    n.Tidy := by
  induction n using Node.induct with
  | h n children _ _ =>
    rintro ⟨names, named⟩ hslots hloops
    have hl {l : Loop} (hl : l ∈ n.allLoops) : ∃ p ∈ n.parts, p.2.loop? = some l := by
      obtain ⟨part, hp, hl⟩ := mem_allLoops.mp hl
      exact ⟨([], part), mem_parts_of_own hp, hl⟩
    refine .mk names hslots (fun l h s => ?_) (fun l h => ?_) fun c hc => ?_
    · obtain ⟨p, hp, hpl⟩ := hl h
      exact (hloops p hp l hpl).1 s
    · obtain ⟨p, hp, hpl⟩ := hl h
      exact (hloops p hp l hpl).2
    · refine children c hc (named c hc) ?_ fun p hp l hpl => ?_
      · rw [slots_eq] at hslots
        exact (List.nodup_flatMap.mp hslots.of_append_left.of_append_right).1 c hc
      · exact hloops (c.1 :: p.1, p.2) (mem_parts_of_child hc hp) l hpl

end Node

/-- What a part needs to go with the tree and the slots. -/
def Part.Fits (c : Course) (stall : Option Nat) : Part → Prop
  | .slot s => s < c.count
  | .test t | .afterTest t => c.Bucket stall t.bucket ∧ ∀ s ∈ t.check.slots, s < c.count
  | .loop l => c.LoopFits stall l ∧ l.body.Fits c (some l.bucket)
  | .afterLoop l =>
    (c.LoopFits stall l ∧ l.body.Fits c (some l.bucket)) ∧ ∃ s, l.target = .slot s ∧ s < c.count

namespace Node

/-- **A tidy node fits** if its parts do and no loop lies above another part. -/
theorem fits_of_parts {c : Course} {stall : Option Nat} (n : Node) : n.Tidy →
    (∀ p ∈ n.parts, p.2.Fits c stall) →
    (∀ i ∈ n.loopBuckets, ∀ b ∈ n.buckets, c.tree.isBelow i b = false) → n.Fits c stall := by
  induction n using Node.induct with
  | h n children _ _ =>
    intro ht hp hapart
    have own {p : Part} (h : p ∈ n.own) : p.Fits c stall := hp _ (mem_parts_of_own h)
    have tests {t : Test} (h : t ∈ n.allTests) :
        c.Bucket stall t.bucket ∧ ∀ s ∈ t.check.slots, s < c.count := by
      rcases List.mem_append.mp h with h | h
      · exact own (p := .test t) (mem_own.mpr h)
      · exact own (p := .afterTest t) (mem_own.mpr h)
    have loops {l : Loop} (h : l ∈ n.allLoops) :
        c.LoopFits stall l ∧ l.body.Fits c (some l.bucket) := by
      rcases List.mem_append.mp h with h | h
      · exact own (p := .loop l) (mem_own.mpr h)
      · exact (own (p := .afterLoop l) (mem_own.mpr h)).1
    refine .mk (fun s h => own (p := .slot s) (mem_own.mpr h)) (fun t h => (tests h).1)
      (fun t h => (tests h).2) (fun l h => (loops h).1)
      (fun l h => (own (p := .afterLoop l) (mem_own.mpr h)).2) hapart (fun l h s hs => ?_)
      (fun l h => (loops h).2) fun child hc => ?_
    · obtain ⟨path, hp⟩ := (ht.locals h).mp hs
      exact mem_slots_of_place hp
    · exact children child hc (ht.child hc)
        (fun p h => hp (child.1 :: p.1, p.2) (mem_parts_of_child hc h))
        fun i hi b hb => hapart i (mem_loopBuckets.mpr (.inr ⟨child, hc, hi⟩)) b
          (mem_buckets.mpr (.inr (.inr ⟨child, hc, hb⟩)))

end Node

/-! ## 5. Scenes at the end of a path -/

namespace Scene

variable {k : Scene} {n : Node} {v? : Option Doc} {q : Path}

/-- The scene at the end of a path, once the value there has been read. -/
def lateAt (k : Scene) (n : Node) (v? : Option Doc) (q : Path) : Scene :=
  { k with
    held := fun s =>
      match n.path? s with
      | some path =>
        if q <+: path then (v?.bind (Doc.follow q)).bind (Doc.reach (path.drop q.length))
        else k.held s
      | none => k.held s
    reads := fun s => k.reads s ∨ ∃ path, (s, q ++ path) ∈ n.places }

/-- The scene at the end of a path, while the value there is read. -/
def duringAt (k : Scene) (n : Node) (q : Path) : Scene :=
  { k with reads := fun s => k.reads s ∨ (s, q) ∈ n.places }

theorem ext {k k' : Scene} (ht : k.truth = k'.truth) (hh : ∀ s, k.held s = k'.held s)
    (hr : ∀ s, k.reads s ↔ k'.reads s) (hn : k.now = k'.now) : k = k' := by
  cases k
  cases k'
  cases ht
  cases hn
  cases funext hh
  cases funext fun s => propext (hr s)
  rfl

theorem lateAt_nil : k.lateAt n v? [] = k.late n v? := by
  refine ext rfl (fun s => ?_) (fun s => Iff.rfl) rfl
  simp only [lateAt, late]
  cases n.path? s with
  | none => rfl
  | some path =>
    dsimp only
    rw [if_pos List.nil_prefix]
    cases v? <;> rfl

theorem duringAt_nil : k.duringAt n [] = k.during n := by
  refine ext rfl (fun _ => rfl) (fun s => or_congr_right ?_) rfl
  rw [Node.mem_places_iff, Node.mem_parts, Node.mem_own]
  simp

variable {child : String × Node}

theorem place_of_child (hc : child ∈ n.children) {s : Nat} {path : Path}
    (h : (s, path) ∈ child.2.places) : (s, child.1 :: path) ∈ n.places :=
  Node.mem_places.mpr (.inr ⟨child, hc, path, rfl, h⟩)

theorem place_in_child (hn : n.Tidy) (hc : child ∈ n.children) {s : Nat} {path : Path}
    (h : (s, child.1 :: path) ∈ n.places) : (s, path) ∈ child.2.places := by
  rcases Node.mem_places.mp h with ⟨-, he⟩ | ⟨c', hc', r, he, hr⟩
  · cases he
  · obtain ⟨hname, rfl⟩ := List.cons.inj he
    rw [hn.child_of_name hc hc' hname]
    exact hr

/-- The scene at the end of a path that begins with a child's name is a scene of the child. -/
theorem lateAt_child (hn : n.Tidy) (hc : child ∈ n.children) :
    k.lateAt n v? (child.1 :: q) = k.lateAt child.2 (v?.bind (Doc.first child.1)) q := by
  refine ext rfl (fun s => ?_) (fun s => or_congr_right (exists_congr fun path =>
    ⟨place_in_child hn hc, place_of_child hc⟩)) rfl
  have follow : v?.bind (Doc.follow (child.1 :: q)) =
      (v?.bind (Doc.first child.1)).bind (Doc.follow q) := by
    rw [Option.bind_assoc]
    rfl
  simp only [lateAt, follow]
  cases hp : child.2.path? s with
  | some path =>
    rw [Node.path?_of_place hn (place_of_child hc (Node.place_of_path? hp))]
    simp only [List.cons_prefix_cons, true_and, List.length_cons, List.drop_succ_cons]
  | none =>
    cases hp' : n.path? s with
    | none => rfl
    | some path =>
      dsimp only
      refine if_neg fun hpre => ?_
      obtain ⟨r, rfl⟩ := hpre
      have hplace := place_in_child hn hc (Node.place_of_path? hp')
      rw [Node.path?_of_place (hn.child hc) hplace] at hp
      cases hp

theorem duringAt_child (hn : n.Tidy) (hc : child ∈ n.children) :
    k.duringAt n (child.1 :: q) = k.duringAt child.2 q :=
  ext rfl (fun _ => rfl) (fun _ => or_congr_right ⟨place_in_child hn hc, place_of_child hc⟩) rfl

end Scene

/-! ## 6. Parts that are right -/

/-- **A part of a node is right in a scene**, where `inner` is true of the elements of loops. -/
def Part.Means (c : Course) (k : Scene) (v? : Option Doc) (n : Node)
    (inner : Loop → Doc → Nat → Bool) (q : Path) : Part → Prop
  | .slot _ => True
  | .test t =>
    k.truth t.bucket = t.check.holds c.kit.decimals (k.captured c.data)
      (Doc.valueOf c.data (v?.bind (Doc.follow q))) ∧ ∀ s ∈ t.check.slots, k.reads s
  | .afterTest t =>
    k.truth t.bucket = t.check.holds c.kit.decimals ((k.lateAt n v? q).captured c.data) .missing ∧
      ∀ s ∈ t.check.slots, (k.lateAt n v? q).reads s
  | .loop l =>
    k.truth l.bucket = l.answer c (v?.bind (Doc.follow q)) (inner l) ∧
      ∀ items, (v?.bind (Doc.follow q)).bind Doc.items? = some items → ∀ x ∈ items,
        l.body.Means c ((k.duringAt n q).inside (inner l x) l x) (some x)
  | .afterLoop l => ∀ s, l.target = .slot s →
    (k.truth l.bucket = l.answer c ((k.lateAt n v? q).held s) (inner l) ∧
      (k.lateAt n v? q).reads s) ∧
      ∀ items, ((k.lateAt n v? q).held s).bind Doc.items? = some items → ∀ x ∈ items,
        l.body.Means c ((k.lateAt n v? q).inside (inner l x) l x) (some x)

/-- **The slots that a part reads are what is expected.** -/
def Part.Tells (told : Told) (k : Scene) (v? : Option Doc) (n : Node) (q : Path) : Part → Prop
  | .slot _ => True
  | .test t => ∀ s ∈ t.check.slots, k.Tells told t.bucket s
  | .afterTest t => ∀ s ∈ t.check.slots, (k.lateAt n v? q).Tells told t.bucket s
  | .loop l => ∀ items, (v?.bind (Doc.follow q)).bind Doc.items? = some items → ∀ x ∈ items,
    ∀ truth, l.body.Tells told ((k.duringAt n q).inside truth l x) (some x)
  | .afterLoop l => ∀ s, l.target = .slot s → (k.lateAt n v? q).Tells told l.bucket s ∧
    ∀ items, ((k.lateAt n v? q).held s).bind Doc.items? = some items → ∀ x ∈ items,
      ∀ truth, l.body.Tells told ((k.lateAt n v? q).inside truth l x) (some x)

section Child

variable {c : Course} {k : Scene} {v? : Option Doc} {n : Node} {q : Path} {child : String × Node}
  {part : Part}

theorem follow_child : v?.bind (Doc.follow (child.1 :: q)) =
    (v?.bind (Doc.first child.1)).bind (Doc.follow q) := by
  rw [Option.bind_assoc]
  rfl

theorem follow_nil : v?.bind (Doc.follow []) = v? := by cases v? <;> rfl

theorem Part.means_child {inner : Loop → Doc → Nat → Bool} (hn : n.Tidy) (hc : child ∈ n.children)
    (h : part.Means c k v? n inner (child.1 :: q)) :
    part.Means c k (v?.bind (Doc.first child.1)) child.2 inner q := by
  cases part with
  | slot _ => trivial
  | test t => rwa [Part.Means, follow_child] at h
  | afterTest t => rwa [Part.Means, Scene.lateAt_child hn hc] at h
  | loop l => rwa [Part.Means, follow_child, Scene.duringAt_child hn hc] at h
  | afterLoop l => rwa [Part.Means, Scene.lateAt_child hn hc] at h

theorem Part.tells_child {told : Told} (hn : n.Tidy) (hc : child ∈ n.children)
    (h : part.Tells told k v? n (child.1 :: q)) :
    part.Tells told k (v?.bind (Doc.first child.1)) child.2 q := by
  cases part with
  | slot _ => trivial
  | test t => exact h
  | afterTest t => rwa [Part.Tells, Scene.lateAt_child hn hc] at h
  | loop l => rwa [Part.Tells, follow_child, Scene.duringAt_child hn hc] at h
  | afterLoop l => rwa [Part.Tells, Scene.lateAt_child hn hc] at h

end Child

namespace Node

/-- **A tidy node is right** if its parts are. -/
theorem means_of_parts {c : Course} {k : Scene} {inner : Loop → Doc → Nat → Bool}
    (hc : ∀ l x, c.tree.Consistent (inner l x)) (n : Node) : ∀ {v? : Option Doc}, n.Tidy →
    (∀ p ∈ n.parts, p.2.Means c k v? n inner p.1) → n.Means c k v? := by
  induction n using Node.induct with
  | h n children _ _ =>
    intro v? ht hp
    have own {p : Part} (h : p ∈ n.own) : p.Means c k v? n inner [] :=
      hp _ (mem_parts_of_own h)
    refine .mk inner (fun t h => ?_) (fun t h => ?_) (fun l h => ?_) (fun l h => ?_)
      (fun l h s hs => ?_) (fun l h s hs => ?_) hc fun child h => ?_
    · have := own (p := .test t) (mem_own.mpr h)
      rwa [Part.Means, follow_nil] at this
    · have := own (p := .afterTest t) (mem_own.mpr h)
      rwa [Part.Means, Scene.lateAt_nil] at this
    · have := own (p := .loop l) (mem_own.mpr h)
      rw [Part.Means, follow_nil, Scene.duringAt_nil] at this
      exact this.1
    · have := own (p := .loop l) (mem_own.mpr h)
      rw [Part.Means, follow_nil, Scene.duringAt_nil] at this
      exact this.2
    · have := own (p := .afterLoop l) (mem_own.mpr h)
      rw [Part.Means, Scene.lateAt_nil] at this
      exact (this s hs).1
    · have := own (p := .afterLoop l) (mem_own.mpr h)
      rw [Part.Means, Scene.lateAt_nil] at this
      exact (this s hs).2
    · exact children child h (ht.child h) fun p hm =>
        Part.means_child ht h (hp _ (mem_parts_of_child h hm))

theorem tells_of_parts {told : Told} {k : Scene} (n : Node) : ∀ {v? : Option Doc}, n.Tidy →
    (∀ p ∈ n.parts, p.2.Tells told k v? n p.1) → n.Tells told k v? := by
  induction n using Node.induct with
  | h n children _ _ =>
    intro v? ht hp
    have own {p : Part} (h : p ∈ n.own) : p.Tells told k v? n [] :=
      hp _ (mem_parts_of_own h)
    refine .mk (fun t h => ?_) (fun t h => ?_) (fun l h => ?_) (fun l h s hs => ?_)
      (fun l h s hs => ?_) fun child h => ?_
    · exact own (p := .test t) (mem_own.mpr h)
    · have := own (p := .afterTest t) (mem_own.mpr h)
      rwa [Part.Tells, Scene.lateAt_nil] at this
    · have := own (p := .loop l) (mem_own.mpr h)
      rwa [Part.Tells, follow_nil, Scene.duringAt_nil] at this
    · have := own (p := .afterLoop l) (mem_own.mpr h)
      rw [Part.Tells, Scene.lateAt_nil] at this
      exact (this s hs).1
    · have := own (p := .afterLoop l) (mem_own.mpr h)
      rw [Part.Tells, Scene.lateAt_nil] at this
      exact (this s hs).2
    · exact children child h (ht.child h) fun p hm =>
        Part.tells_child ht h (hp _ (mem_parts_of_child h hm))

end Node

end Sift
