import Sift.Proofs.Value.Containers
import Sift.Proofs.Value.Fixed

/-!
# All values in order

`compare_preorder`: the order of values is a total preorder. That any two values compare, the same
from both sides, and each is equal to itself, needs nothing of the values, nor of decimals. That it
goes on from two to three holds of `Ordinary` values, which are orderly to any depth, where decimals
are lawful.
-/

namespace Sift.Value

variable {D : Decimals}

/-! ## 1. Values and their parts -/

/-- What decides between two containers of one kind. -/
def compareParts (D : Decimals) (a b : Value) : Ordering :=
  match a, b with
  | .array l, .array r | .object l, .object r => compareContainers D l r
  | _, _ => .eq

/-- All but two arrays and two objects. -/
theorem compareParts_others {a b : Value} (harray : ∀ l r, a = .array l → b = .array r → False)
    (hobject : ∀ l r, a = .object l → b = .object r → False) : compareParts D a b = .eq := by
  unfold compareParts
  split
  · exact (harray _ _ rfl rfl).elim
  · exact (hobject _ _ rfl rfl).elim
  · rfl

/-- Values compare as scalars first, and then by their parts. -/
theorem compare_eq (a b : Value) :
    a.compare D b = (compareScalars D a b).then (compareParts D a b) := by
  unfold compare
  split
  · rfl
  · rfl
  · next harray hobject => rw [compareParts_others harray hobject, Ordering.then_eq]

theorem compareParts_swap (a b : Value) : compareParts D b a = (compareParts D a b).swap := by
  cases a with
  | array l => cases b with
    | array r => exact compareContainers_swap l r
    | _ => rfl
  | object l => cases b with
    | object r => exact compareContainers_swap l r
    | _ => rfl
  | _ => cases b <;> rfl

/-- **Two values compared the other way round.** -/
theorem compare_swap (a b : Value) : b.compare D a = (a.compare D b).swap := by
  rw [compare_eq b, compare_eq a, Ordering.swap_then, compareScalars_swap a, compareParts_swap a]

theorem compareParts_self (a : Value) : compareParts D a a = .eq := by
  cases a with
  | array text => exact compareContainers_self text
  | object text => exact compareContainers_self text
  | _ => rfl

/-! ## 2. Three values -/

/-- **What the order goes on for.** A value is orderly, and a container is a document whose scalars
    and keys are. -/
structure Ordinary (v : Value) : Prop where
  orderly : v.Orderly
  document : ∀ text, v = .array text ∨ v = .object text →
    ∃ d : Doc, d.Text text ∧ d.Every Doc.Orderly

variable {a b c : Value}

theorem exists_array (h : a.group = 15) : ∃ text, a = .array text := by
  cases a with
  | array text => exact ⟨text, rfl⟩
  | bool b => cases b <;> cases h
  | _ => cases h

theorem exists_object (h : a.group = 16) : ∃ text, a = .object text := by
  cases a with
  | object text => exact ⟨text, rfl⟩
  | bool b => cases b <;> cases h
  | _ => cases h

/-- What is neither an array nor an object has no parts. -/
theorem compareParts_of_group (ha : a.group ≠ 15) (ho : a.group ≠ 16) (b : Value) :
    compareParts D a b = .eq := by
  refine compareParts_others ?_ ?_
  · rintro l r rfl -
    exact ha rfl
  · rintro l r rfl -
    exact ho rfl

theorem transits_containers (hD : D.Lawful) {x y z : Bytes}
    (hx : ∃ d : Doc, d.Text x ∧ d.Every Doc.Orderly)
    (hy : ∃ d : Doc, d.Text y ∧ d.Every Doc.Orderly)
    (hz : ∃ d : Doc, d.Text z ∧ d.Every Doc.Orderly) :
    Transits (compareContainers D x y) (compareContainers D y z) (compareContainers D x z) := by
  obtain ⟨d, hd, hx⟩ := hx
  obtain ⟨e, he, hy⟩ := hy
  obtain ⟨f, hf, hz⟩ := hz
  rw [hd.compareContainers he, he.compareContainers hf, hd.compareContainers hf]
  exact Doc.transits_order hD hx hy hz

/-- **Ordinary values go together**, any three of them. -/
theorem transits_compare (hD : D.Lawful) (ha : a.Ordinary) (hb : b.Ordinary) (hc : c.Ordinary) :
    Transits (a.compare D b) (b.compare D c) (a.compare D c) := by
  rw [compare_eq, compare_eq, compare_eq]
  refine (transits_scalars hD ha.orderly hb.orderly hc.orderly).andThen fun hab hbc => ?_
  have hab := group_eq_of_scalars hD ha.orderly hb.orderly hab
  have hbc := group_eq_of_scalars hD hb.orderly hc.orderly hbc
  by_cases harray : a.group = 15
  · obtain ⟨x, rfl⟩ := exists_array harray
    obtain ⟨y, rfl⟩ := exists_array (hab.symm.trans harray)
    obtain ⟨z, rfl⟩ := exists_array (hbc.symm.trans (hab.symm.trans harray))
    exact transits_containers hD (ha.document x (.inl rfl)) (hb.document y (.inl rfl))
      (hc.document z (.inl rfl))
  · by_cases hobject : a.group = 16
    · obtain ⟨x, rfl⟩ := exists_object hobject
      obtain ⟨y, rfl⟩ := exists_object (hab.symm.trans hobject)
      obtain ⟨z, rfl⟩ := exists_object (hbc.symm.trans (hab.symm.trans hobject))
      exact transits_containers hD (ha.document x (.inr rfl)) (hb.document y (.inr rfl))
        (hc.document z (.inr rfl))
    · rw [compareParts_of_group harray hobject, compareParts_of_group harray hobject,
        compareParts_of_group (hab ▸ harray) (hab ▸ hobject)]
      exact ⟨fun _ => rfl, fun _ => rfl, fun _ => rfl⟩

/-- **The order of values is a total preorder.** Compared the other way round, any two values come
    out the other way round, and any value is equal to itself; and of ordinary values, one that is
    not greater than another is not greater than what that is not greater than. -/
theorem compare_preorder (D : Decimals) :
    (∀ a b : Value, b.compare D a = (a.compare D b).swap) ∧ (∀ a : Value, a.compare D a = .eq) ∧
      (D.Lawful → ∀ a b c : Value, a.Ordinary → b.Ordinary → c.Ordinary →
        a.compare D b ≠ .gt → b.compare D c ≠ .gt → a.compare D c ≠ .gt) := by
  refine ⟨compare_swap, fun a => ?_, fun hD a b c ha hb hc => (transits_compare hD ha hb hc).not_gt⟩
  rw [compare_eq, compareScalars_self, compareParts_self]
  rfl

/-- One half, the number one as it is written, and the array that holds it. -/
theorem compare_preorder_half_one_array :
    (float (Float.ofBits 0x3FE0000000000000)).compare .standard (uintText [0x31]) ≠ .gt ∧
      (uintText [0x31]).compare .standard (array [0x5B, 0x31, 0x5D]) ≠ .gt ∧
        (float (Float.ofBits 0x3FE0000000000000)).compare .standard
          (array [0x5B, 0x31, 0x5D]) ≠ .gt := by
  have hhalf : (float (Float.ofBits 0x3FE0000000000000)).Ordinary := by
    refine ⟨⟨fun text h => ?_, fun x h => ?_, rfl⟩, fun text h => ?_⟩
    · rcases h with h | h | h <;> cases h
    · cases h
      have hshape : Double.shape (Float.ofBits 0x3FE0000000000000) =
          .finite false (2 ^ 52) (-53) := by decide
      refine ⟨_, Double.key?_finite hshape, .inr ?_⟩
      rw [Double.natAbs_signed, @Double.unit_eq 53 (by decide),
        show (-53 + 1074 : Int).toNat = 1074 - 53 from rfl]
      generalize 2 ^ (1074 - 53) = u
      omega
    · rcases h with h | h <;> cases h
  have hdigit : Grammar.Number .integer [0x31] :=
    .integer .none (.digits (by decide) (by simp [Grammar.Digits]))
  have hone : (uintText [0x31]).Ordinary := by
    refine ⟨⟨fun text h => ?_, fun x h => ?_, rfl⟩, fun text h => ?_⟩
    · rcases h with h | h | h <;> cases h
      exact ⟨_, hdigit⟩
    · cases h
    · rcases h with h | h <;> cases h
  have harray : (array [0x5B, 0x31, 0x5D]).Ordinary := by
    refine ⟨⟨fun text h => ?_, fun x h => ?_, rfl⟩, fun text h => ?_⟩
    · rcases h with h | h | h <;> cases h
    · cases h
    · rcases h with h | h <;> cases h
      have hgap : Grammar.Gap [] := by simp [Grammar.Gap]
      refine ⟨.array ⟨.arrayStart, 0, [0x5B]⟩ [.scalar ⟨.integer, 1, [0x31]⟩] 3, ?_,
        hone.orderly, trivial⟩
      refine ⟨[], [0x5B, 0x31, 0x5D], [], rfl, hgap, ⟨rfl, rfl, [0x31], rfl, ?_⟩, hgap⟩
      exact ⟨[], [0x31], [], rfl, hgap, ⟨rfl, rfl, .number hdigit⟩, hgap⟩
  exact ⟨by decide, by decide,
    (compare_preorder .standard).2.2 Decimals.lawful_standard _ _ _ hhalf hone harray (by decide)
      (by decide)⟩

end Sift.Value
