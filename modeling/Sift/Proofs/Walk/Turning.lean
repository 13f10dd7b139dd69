import Sift.Proofs.Walk.Shape

/-!
# Turning to an element

What a loop does before each element: nothing is known of what lies below the loop any more, its slots
are empty, and all else is as it was (`outcome_beginElement`). Where all those slots exist, which they
do in every plan that fits its tree, this never fails.
-/

namespace Sift

variable {s : Setting} {w : Walker}

/-! ## 1. Empty slots -/

/-- The slots with some of them emptied. -/
def Slots.emptied (slots : Slots) (locals : List Nat) : Slots :=
  slots.mapIdx fun i found => if i ∈ locals then none else found

namespace Slots

variable {slots : Slots} {locals : List Nat} {i : Nat}

theorem size_emptied : (slots.emptied locals).size = slots.size := Array.size_mapIdx

theorem getElem?_emptied : (slots.emptied locals)[i]? =
    slots[i]?.map fun found => if i ∈ locals then none else found := Array.getElem?_mapIdx

/-- A slot that is emptied holds nothing. -/
theorem emptied_of_mem (hi : i ∈ locals) (hlt : i < slots.size) :
    (slots.emptied locals)[i]? = some none := by
  rw [getElem?_emptied, Array.getElem?_eq_getElem hlt, Option.map_some, if_pos hi]

/-- The other slots hold what they held. -/
theorem emptied_of_not_mem (hi : i ∉ locals) : (slots.emptied locals)[i]? = slots[i]? := by
  rw [getElem?_emptied]
  simp only [if_neg hi, Option.map_id']

theorem emptied_nil : slots.emptied [] = slots :=
  Array.ext_getElem? fun _ => emptied_of_not_mem List.not_mem_nil

theorem emptied_cons :
    Slots.emptied (slots.setIfInBounds i none) locals = slots.emptied (i :: locals) := by
  refine Array.ext_getElem? fun j => ?_
  rw [getElem?_emptied, getElem?_emptied, Array.getElem?_setIfInBounds]
  by_cases hij : i = j
  · subst hij
    by_cases hlt : i < slots.size <;> simp [hlt]
  · simp [hij, Ne.symm hij]

end Slots

/-! ## 2. What comes of it -/

/-- Slots that exist are emptied one after the other. -/
theorem outcome_releases : ∀ {locals : List Nat} {w : Walker}, (∀ i ∈ locals, i < w.slots.size) →
    (locals.forM Walk.release : Pass PUnit).outcome s w =
      (.ok ⟨⟩, { w with slots := w.slots.emptied locals })
  | [], w, _ => by
    rw [Slots.emptied_nil]
    rfl
  | i :: rest, w, h => by
    have hone : (Walk.release i : Pass Unit).outcome s w =
        (.ok (), { w with slots := w.slots.setIfInBounds i none }) := by
      unfold Walk.release
      rw [Walk.outcome_bind, outcome_slotAt, Array.getElem?_eq_getElem (h i List.mem_cons_self)]
      rfl
    have hrest : ∀ j ∈ rest, j < (w.slots.setIfInBounds i none).size := fun j hj => by
      rw [Array.size_setIfInBounds]
      exact h j (List.mem_cons_of_mem i hj)
    rw [List.forM_eq_forM, List.forM_cons, Walk.outcome_bind, hone]
    refine (outcome_releases (w := { w with slots := w.slots.setIfInBounds i none }) hrest).trans ?_
    rw [Slots.emptied_cons]

/-- **Turning to an element** forgets what lies below the loop, empties its slots, and does nothing
    else. -/
theorem outcome_beginElement {bucket : Nat} {locals : List Nat} {first : Token}
    (h : ∀ i ∈ locals, i < w.slots.size) :
    (Walk.beginElement bucket locals first : Pass Unit).outcome s w =
      (.ok (), { w with
        state := w.state.resetBelow bucket
        slots := w.slots.emptied locals
        trail := .began bucket first (w.state.resetBelow bucket).marks (w.slots.emptied locals) ::
          w.trail }) := by
  unfold Walk.beginElement
  rw [Walk.outcome_bind, outcome_modify]
  show (locals.forM Walk.release >>= _ : Pass Unit).outcome s
    { w with state := w.state.resetBelow bucket } = _
  rw [Walk.outcome_bind, outcome_releases (w := { w with state := w.state.resetBelow bucket }) h]
  rfl

end Sift
