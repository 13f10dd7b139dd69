import Sift.Proofs.Walk.Halting

/-!
# The parts of a plan

`Node.induct` is induction over the nodes of a plan: over the children of a node and over the
bodies of its loops. A node has buckets and slots of its own scope (`Node.buckets`,
`Node.places`) and others in the bodies of its loops (`Node.slots` has them all).

The handlers of a node's parts are those that the node's own handler is made of
(`Node.halting_eq`).
-/

namespace Sift

/-! ## 1. Induction -/

section Induct

variable {P : Node → Prop}

mutual

/-- What holds of a node if it holds of its children and of the bodies of its loops holds of every
    node. -/
theorem Node.induct (h : ∀ n : Node, (∀ c ∈ n.children, P c.2) → (∀ l ∈ n.loops, P l.body) →
    (∀ l ∈ n.afterLoops, P l.body) → P n) : ∀ n, P n
  | ⟨_, _, loops, children, _, afterLoops⟩ =>
    h _ (Node.induct_children h children) (Node.induct_loops h loops)
      (Node.induct_loops h afterLoops)

theorem Node.induct_loops (h : ∀ n : Node, (∀ c ∈ n.children, P c.2) →
    (∀ l ∈ n.loops, P l.body) → (∀ l ∈ n.afterLoops, P l.body) → P n) :
    ∀ loops : List Loop, ∀ l ∈ loops, P l.body
  | ⟨_, _, _, body, _⟩ :: rest, l, hl => by
    rcases List.mem_cons.mp hl with rfl | hl
    · exact Node.induct h body
    · exact Node.induct_loops h rest l hl

theorem Node.induct_children (h : ∀ n : Node, (∀ c ∈ n.children, P c.2) →
    (∀ l ∈ n.loops, P l.body) → (∀ l ∈ n.afterLoops, P l.body) → P n) :
    ∀ children : List (String × Node), ∀ c ∈ children, P c.2
  | (_, n) :: rest, c, hc => by
    rcases List.mem_cons.mp hc with rfl | hc
    · exact Node.induct h n
    · exact Node.induct_children h rest c hc

end

end Induct

/-! ## 2. Handlers -/

theorem haltingLoops_eq : ∀ loops : List Loop, haltingLoops loops = loops.map Loop.halting
  | [] => rfl
  | _ :: rest => by rw [haltingLoops, haltingLoops_eq rest, List.map_cons]

theorem haltingChildren_eq : ∀ children : List (String × Node),
    haltingChildren children = children.map fun c => (c.1, c.2.halting)
  | [] => rfl
  | (_, _) :: rest => by rw [haltingChildren, haltingChildren_eq rest, List.map_cons]

theorem haltingWaiting_eq : ∀ loops : List Loop,
    haltingWaiting loops = loops.map fun l => (l.target, l.halting)
  | [] => rfl
  | _ :: rest => by rw [haltingWaiting, haltingWaiting_eq rest, List.map_cons]

/-- The handler of a node, put together from those of its parts. -/
theorem Node.halting_eq (n : Node) :
    n.halting = .ofParts n.slot n.tests (n.loops.map Loop.halting)
      (n.children.map fun c => (c.1, c.2.halting)) n.afterTests
      (n.afterLoops.map fun l => (l.target, l.halting)) := by
  cases n
  rw [halting, haltingLoops_eq, haltingChildren_eq, haltingWaiting_eq]

theorem Loop.halting_eq (l : Loop) :
    l.halting = ⟨l.bucket, Walk.runLoop l.bucket l.mode l.locals l.body.halting⟩ := by
  cases l
  rw [halting]

theorem Loop.halting_bucket (l : Loop) : l.halting.bucket = l.bucket := by rw [halting_eq]

/-- The handler of a member is that of the child of its name. -/
theorem handlerOf?_eq (children : List (String × Node)) (key : Token) :
    Walk.handlerOf? (children.map fun c => (c.1, c.2.halting)) key =
      (Walk.nameOf? key).bind fun name =>
        (children.find? (·.1 = name)).map fun c => c.2.halting := by
  unfold Walk.handlerOf?
  cases Walk.nameOf? key with
  | none => rfl
  | some name =>
    simp only [Option.bind_some, List.find?_map, Option.map_map]
    rfl

/-! ## 3. Buckets -/

namespace Node

/-- The loops of a node, run while its value is read or later. -/
def allLoops (n : Node) : List Loop := n.loops ++ n.afterLoops

/-- The tests of a node, made of its value or later. -/
def allTests (n : Node) : List Test := n.tests ++ n.afterTests

mutual

/-- The buckets of the tests and loops of a node and its children. Those in the bodies of loops do
    not count. -/
def buckets : Node → List Nat
  | ⟨_, tests, loops, children, afterTests, afterLoops⟩ =>
    (tests ++ afterTests).map (·.bucket) ++ (loops ++ afterLoops).map (·.bucket) ++
      bucketsOfAll children

/-- The buckets of several children. -/
def bucketsOfAll : List (String × Node) → List Nat
  | [] => []
  | (_, n) :: rest => n.buckets ++ bucketsOfAll rest

end

theorem bucketsOfAll_eq : ∀ children : List (String × Node),
    bucketsOfAll children = children.flatMap fun c => c.2.buckets
  | [] => rfl
  | (_, _) :: rest => by rw [bucketsOfAll, bucketsOfAll_eq rest, List.flatMap_cons]

theorem buckets_eq (n : Node) :
    n.buckets = n.allTests.map (·.bucket) ++ n.allLoops.map (·.bucket) ++
      n.children.flatMap fun c => c.2.buckets := by
  cases n
  rw [buckets, bucketsOfAll_eq]
  rfl

theorem mem_buckets {n : Node} {b : Nat} :
    b ∈ n.buckets ↔ (∃ t ∈ n.allTests, t.bucket = b) ∨ (∃ l ∈ n.allLoops, l.bucket = b) ∨
      ∃ c ∈ n.children, b ∈ c.2.buckets := by
  rw [buckets_eq, List.mem_append, List.mem_append, List.mem_map, List.mem_map,
    List.mem_flatMap, or_assoc]

mutual

/-- The buckets of the loops of a node and its children. -/
def loopBuckets : Node → List Nat
  | ⟨_, _, loops, children, _, afterLoops⟩ =>
    (loops ++ afterLoops).map (·.bucket) ++ loopBucketsOfAll children

/-- The buckets of the loops of several children. -/
def loopBucketsOfAll : List (String × Node) → List Nat
  | [] => []
  | (_, n) :: rest => n.loopBuckets ++ loopBucketsOfAll rest

end

theorem loopBucketsOfAll_eq : ∀ children : List (String × Node),
    loopBucketsOfAll children = children.flatMap fun c => c.2.loopBuckets
  | [] => rfl
  | (_, _) :: rest => by rw [loopBucketsOfAll, loopBucketsOfAll_eq rest, List.flatMap_cons]

theorem mem_loopBuckets {n : Node} {b : Nat} :
    b ∈ n.loopBuckets ↔ (∃ l ∈ n.allLoops, l.bucket = b) ∨
      ∃ c ∈ n.children, b ∈ c.2.loopBuckets := by
  cases n
  rw [loopBuckets, loopBucketsOfAll_eq, List.mem_append, List.mem_map, List.mem_flatMap]
  rfl

/-! ## 4. Slots -/

mutual

/-- The slots of a node and its children, each with the path that leads to it. -/
def places : Node → List (Nat × Path)
  | ⟨slot, _, _, children, _, _⟩ => slot.toList.map (·, []) ++ placesOfAll children

/-- The slots of several children. -/
def placesOfAll : List (String × Node) → List (Nat × Path)
  | [] => []
  | (name, n) :: rest => n.places.map (fun p => (p.1, name :: p.2)) ++ placesOfAll rest

end

theorem placesOfAll_eq : ∀ children : List (String × Node),
    placesOfAll children =
      children.flatMap fun c => c.2.places.map fun p => (p.1, c.1 :: p.2)
  | [] => rfl
  | (_, _) :: rest => by rw [placesOfAll, placesOfAll_eq rest, List.flatMap_cons]

theorem mem_places {n : Node} {s : Nat} {path : Path} :
    (s, path) ∈ n.places ↔ (n.slot = some s ∧ path = []) ∨
      ∃ c ∈ n.children, ∃ rest, path = c.1 :: rest ∧ (s, rest) ∈ c.2.places := by
  cases n with
  | mk slot _ _ children _ _ =>
    rw [places, placesOfAll_eq, List.mem_append, List.mem_flatMap]
    constructor
    · rintro (h | ⟨c, hc, h⟩)
      · left
        obtain ⟨_, hs, he⟩ := List.mem_map.mp h
        cases he
        exact ⟨Option.mem_toList.mp hs, rfl⟩
      · right
        obtain ⟨p, hp, he⟩ := List.mem_map.mp h
        cases he
        exact ⟨c, hc, p.2, rfl, hp⟩
    · rintro (⟨hs, rfl⟩ | ⟨c, hc, rest, rfl, h⟩)
      · exact .inl (List.mem_map.mpr ⟨s, Option.mem_toList.mpr hs, rfl⟩)
      · exact .inr ⟨c, hc, List.mem_map.mpr ⟨(s, rest), h, rfl⟩⟩

mutual

/-- All slots of a node, those in the bodies of its loops included. -/
def slots : Node → List Nat
  | ⟨slot, _, loops, children, _, afterLoops⟩ =>
    slot.toList ++ slotsOfLoops loops ++ slotsOfAll children ++ slotsOfLoops afterLoops

/-- The slots in the bodies of several loops. -/
def slotsOfLoops : List Loop → List Nat
  | [] => []
  | ⟨_, _, _, body, _⟩ :: rest => body.slots ++ slotsOfLoops rest

/-- The slots of several children. -/
def slotsOfAll : List (String × Node) → List Nat
  | [] => []
  | (_, n) :: rest => n.slots ++ slotsOfAll rest

end

theorem slotsOfLoops_eq : ∀ loops : List Loop,
    slotsOfLoops loops = loops.flatMap fun l => l.body.slots
  | [] => rfl
  | ⟨_, _, _, _, _⟩ :: rest => by rw [slotsOfLoops, slotsOfLoops_eq rest, List.flatMap_cons]

theorem slotsOfAll_eq : ∀ children : List (String × Node),
    slotsOfAll children = children.flatMap fun c => c.2.slots
  | [] => rfl
  | (_, _) :: rest => by rw [slotsOfAll, slotsOfAll_eq rest, List.flatMap_cons]

theorem slots_eq (n : Node) :
    n.slots = n.slot.toList ++ (n.loops.flatMap fun l => l.body.slots) ++
      (n.children.flatMap fun c => c.2.slots) ++ n.afterLoops.flatMap fun l => l.body.slots := by
  cases n
  rw [slots, slotsOfLoops_eq, slotsOfAll_eq, slotsOfLoops_eq]

theorem mem_slots {n : Node} {s : Nat} :
    s ∈ n.slots ↔ n.slot = some s ∨ (∃ l ∈ n.allLoops, s ∈ l.body.slots) ∨
      ∃ c ∈ n.children, s ∈ c.2.slots := by
  rw [slots_eq]
  simp only [List.mem_append, List.mem_flatMap, Option.mem_toList, allLoops]
  constructor
  · rintro (((h | ⟨l, hl, h⟩) | h) | ⟨l, hl, h⟩)
    · exact .inl h
    · exact .inr (.inl ⟨l, .inl hl, h⟩)
    · exact .inr (.inr h)
    · exact .inr (.inl ⟨l, .inr hl, h⟩)
  · rintro (h | ⟨l, hl | hl, h⟩ | h)
    · exact .inl (.inl (.inl h))
    · exact .inl (.inl (.inr ⟨l, hl, h⟩))
    · exact .inr ⟨l, hl, h⟩
    · exact .inl (.inr h)

end Node

end Sift
