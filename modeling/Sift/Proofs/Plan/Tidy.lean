import Mathlib.Data.List.Nodup
import Mathlib.Data.List.Pairwise
import Sift.Proofs.Plan.Parts

/-!
# Tidy plans

In a tidy plan the children of a node have different names, the slots different numbers, and a
loop empties the slots of its body's own scope. So a slot has one place (`Tidy.path_unique`), and
the parts of a node have no slot in common (`Tidy.own_apart`, `Tidy.children_apart`,
`Tidy.place_apart`).
-/

namespace Sift.Node

/-- **Children have different names, and slots different numbers.** -/
inductive Tidy : Node → Prop
  | mk {n : Node} (names : (n.children.map (·.1)).Nodup) (slots : n.slots.Nodup)
      (locals : ∀ l ∈ n.allLoops, ∀ s, s ∈ l.locals ↔ ∃ path, (s, path) ∈ l.body.places)
      (bodies : ∀ l ∈ n.allLoops, l.body.Tidy)
      (children : ∀ child ∈ n.children, child.2.Tidy) : n.Tidy

theorem mem_slots_of_place {s : Nat} {path : Path} : ∀ {n : Node}, (s, path) ∈ n.places →
    s ∈ n.slots := by
  induction path with
  | nil =>
    intro n h
    rcases mem_places.mp h with ⟨hs, -⟩ | ⟨c, -, rest, hp, -⟩
    · exact mem_slots.mpr (.inl hs)
    · cases hp
  | cons name path ih =>
    intro n h
    rcases mem_places.mp h with ⟨-, hp⟩ | ⟨c, hc, rest, hp, hr⟩
    · cases hp
    · cases hp
      exact mem_slots.mpr (.inr (.inr ⟨c, hc, ih hr⟩))

/-- Elements of one list with disjoint lists of their own have nothing in common. -/
theorem not_mem_of_disjoint {α : Type} {l : List α} {f : α → List Nat}
    (h : (l.flatMap f).Nodup) {a b : α} (ha : a ∈ l) (hb : b ∈ l) (hne : a ≠ b) {s : Nat}
    (hs : s ∈ f a) : s ∉ f b := by
  have hp := (List.nodup_flatMap.mp h).2
  have symm : Std.Symm (Function.onFun List.Disjoint f) := ⟨fun _ _ h _ hb ha => h ha hb⟩
  exact fun hs' => hp.forall ha hb hne hs hs'

namespace Tidy

variable {n : Node} {s : Nat} {path : Path}

theorem names (h : n.Tidy) : (n.children.map (·.1)).Nodup := by cases h; assumption

theorem slots (h : n.Tidy) : n.slots.Nodup := by cases h; assumption

theorem locals (h : n.Tidy) {l : Loop} (hl : l ∈ n.allLoops) :
    s ∈ l.locals ↔ ∃ path, (s, path) ∈ l.body.places := by
  cases h with
  | mk _ _ locals => exact locals l hl s

theorem body (h : n.Tidy) {l : Loop} (hl : l ∈ n.allLoops) : l.body.Tidy := by
  cases h with
  | mk _ _ _ bodies => exact bodies l hl

theorem child (h : n.Tidy) {child : String × Node} (hc : child ∈ n.children) : child.2.Tidy := by
  cases h with
  | mk _ _ _ _ children => exact children child hc

/-- The slot of a node is in no part of it. -/
theorem own_apart (h : n.Tidy) (hs : n.slot = some s) :
    (∀ child ∈ n.children, s ∉ child.2.slots) ∧ ∀ l ∈ n.allLoops, s ∉ l.body.slots := by
  have hn := h.slots
  rw [slots_eq, hs] at hn
  simp only [Option.toList_some, List.append_assoc, List.cons_append, List.nil_append,
    List.nodup_cons, List.mem_append, List.mem_flatMap, not_or, not_exists, not_and] at hn
  obtain ⟨⟨hl, hc, ha⟩, -⟩ := hn
  refine ⟨hc, fun l hm => ?_⟩
  rcases List.mem_append.mp hm with hm | hm
  · exact hl l hm
  · exact ha l hm

/-- Children have no slot in common. -/
theorem children_apart (h : n.Tidy) {c₁ c₂ : String × Node} (h₁ : c₁ ∈ n.children)
    (h₂ : c₂ ∈ n.children) (hne : c₁ ≠ c₂) (hs : s ∈ c₁.2.slots) : s ∉ c₂.2.slots := by
  have hn := h.slots
  rw [slots_eq] at hn
  exact not_mem_of_disjoint (f := fun c : String × Node => c.2.slots)
    hn.of_append_left.of_append_right h₁ h₂ hne hs

/-- A child has no slot in common with the body of a loop. -/
theorem child_apart (h : n.Tidy) {child : String × Node} (hc : child ∈ n.children) {l : Loop}
    (hl : l ∈ n.allLoops) (hs : s ∈ child.2.slots) : s ∉ l.body.slots := by
  have hn := h.slots
  rw [slots_eq] at hn
  have mem {ls : List Loop} (hl : l ∈ ls) (hb : s ∈ l.body.slots) :
      s ∈ ls.flatMap fun l => l.body.slots := List.mem_flatMap.mpr ⟨l, hl, hb⟩
  have mem' : s ∈ n.children.flatMap fun c => c.2.slots := List.mem_flatMap.mpr ⟨child, hc, hs⟩
  intro hb
  rcases List.mem_append.mp hl with hl | hl
  · have hd := (List.nodup_append'.mp hn.of_append_left).2.2
    exact hd (List.mem_append_right _ (mem hl hb)) mem'
  · have hd := (List.nodup_append'.mp hn).2.2
    exact hd (List.mem_append_right _ mem') (mem hl hb)

/-- What has a place in a node is not in the body of a loop. -/
theorem place_apart (h : n.Tidy) (hp : (s, path) ∈ n.places) {l : Loop} (hl : l ∈ n.allLoops) :
    s ∉ l.body.slots := by
  rcases mem_places.mp hp with ⟨hs, -⟩ | ⟨child, hc, rest, -, hr⟩
  · exact (h.own_apart hs).2 l hl
  · exact h.child_apart hc hl (mem_slots_of_place hr)

/-- **A slot has one place.** -/
theorem path_unique (h : n.Tidy) {path' : Path} (hp : (s, path) ∈ n.places)
    (hp' : (s, path') ∈ n.places) : path = path' := by
  induction path generalizing n path' with
  | nil =>
    rcases mem_places.mp hp with ⟨hs, -⟩ | ⟨_, _, _, he, -⟩
    · rcases mem_places.mp hp' with ⟨-, rfl⟩ | ⟨child, hc, rest, -, hr⟩
      · rfl
      · exact absurd (mem_slots_of_place hr) ((h.own_apart hs).1 child hc)
    · cases he
  | cons name path ih =>
    rcases mem_places.mp hp with ⟨-, he⟩ | ⟨child, hc, rest, he, hr⟩
    · cases he
    · cases he
      rcases mem_places.mp hp' with ⟨hs, -⟩ | ⟨child', hc', rest', rfl, hr'⟩
      · exact absurd (mem_slots_of_place hr) ((h.own_apart hs).1 child hc)
      · by_cases hne : child = child'
        · subst hne
          rw [ih (h.child hc) hr hr']
        · exact absurd (mem_slots_of_place hr')
            (h.children_apart hc hc' hne (mem_slots_of_place hr))

/-- The child of a name. -/
theorem child_of_name (h : n.Tidy) {c₁ c₂ : String × Node} (h₁ : c₁ ∈ n.children)
    (h₂ : c₂ ∈ n.children) (hn : c₁.1 = c₂.1) : c₁ = c₂ :=
  List.inj_on_of_nodup_map h.names h₁ h₂ hn

end Tidy

/-- The path in a node that leads to the value a slot is for. -/
def path? (n : Node) (s : Nat) : Option Path := (n.places.find? (·.1 = s)).map (·.2)

section Path

variable {n : Node} {s : Nat} {path : Path}

theorem place_of_path? (h : n.path? s = some path) : (s, path) ∈ n.places := by
  obtain ⟨p, hp, rfl⟩ := Option.map_eq_some_iff.mp h
  have hs := List.find?_some hp
  simp only [decide_eq_true_eq] at hs
  subst hs
  exact List.mem_of_find?_eq_some hp

theorem path?_of_place (h : n.Tidy) (hp : (s, path) ∈ n.places) : n.path? s = some path := by
  cases hq : n.path? s with
  | some path' => rw [h.path_unique hp (place_of_path? hq)]
  | none =>
    rw [path?, Option.map_eq_none_iff, List.find?_eq_none] at hq
    exact absurd (decide_eq_true rfl) (hq (s, path) hp)

end Path

end Sift.Node
