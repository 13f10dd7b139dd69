import Sift.Proofs.Text.Decoded
import Sift.Proofs.Value.Numbers

/-!
# Values in order, without their parts

Any two values that are not both arrays and not both objects are compared as scalars.

* Compared the other way round, they come out the other way round, and a value is equal to itself
  (`compareScalars_swap`, `compareScalars_self`). This is so for all values.
* The order is one of keys: the group of kinds that a value is of, its place if it is a number, and
  its bytes if it is a string (`compareScalars_eq`). This leaves out the string `true`, which is
  equal to a value of another group, doubles too near to zero, and numbers that are not spelled as
  one (`Orderly`).

`Transits` says of three comparisons that they go together as in a total preorder. It is told of
scalars here (`transits_scalars`), and of all that is built of them later.
-/

namespace Sift

/-! ## 1. Three comparisons -/

/-- **How three comparisons go together**: that of a first with a second, of the second with a
    third, and of the first with the third. Of two that are equal either may stand for the other,
    and what goes one way twice goes that way. -/
structure Transits (ab bc ac : Ordering) : Prop where
  left : ab = .eq → ac = bc
  right : bc = .eq → ac = ab
  same : ab = bc → ac = ab

namespace Transits

variable {ab bc ac ab' bc' ac' : Ordering}

theorem not_gt (h : Transits ab bc ac) (hab : ab ≠ .gt) (hbc : bc ≠ .gt) : ac ≠ .gt := by
  cases ab with
  | lt => cases bc with
    | lt => rw [h.same rfl]; exact hab
    | eq => rw [h.right rfl]; exact hab
    | gt => exact absurd rfl hbc
  | eq => rw [h.left rfl]; exact hbc
  | gt => exact absurd rfl hab

/-- An order goes together. -/
theorem of_cmp {α : Type} (cmp : α → α → Ordering) [Std.TransCmp cmp] (a b c : α) :
    Transits (cmp a b) (cmp b c) (cmp a c) where
  left h := Std.TransCmp.congr_left h
  right h := (Std.TransCmp.congr_right h).symm
  same h := by
    cases hab : cmp a b with
    | lt => exact Std.TransCmp.lt_trans hab (h ▸ hab)
    | eq => exact Std.TransCmp.eq_trans hab (h ▸ hab)
    | gt => exact Std.TransCmp.gt_trans hab (h ▸ hab)

/-- **One order after another.** The second counts only where the first tells nothing apart. -/
theorem andThen (h : Transits ab bc ac) (h' : ab = .eq → bc = .eq → Transits ab' bc' ac') :
    Transits (ab.then ab') (bc.then bc') (ac.then ac') := by
  cases ab with
  | eq =>
    obtain rfl := h.left rfl
    cases ac with
    | eq => exact h' rfl rfl
    | lt => exact ⟨fun _ => rfl, Ordering.noConfusion, fun h => h.symm⟩
    | gt => exact ⟨fun _ => rfl, Ordering.noConfusion, fun h => h.symm⟩
  | lt => cases bc with
    | gt => exact ⟨Ordering.noConfusion, Ordering.noConfusion, Ordering.noConfusion⟩
    | eq =>
      obtain rfl := h.right rfl
      exact ⟨Ordering.noConfusion, fun _ => rfl, fun _ => rfl⟩
    | lt =>
      obtain rfl := h.same rfl
      exact ⟨Ordering.noConfusion, Ordering.noConfusion, fun _ => rfl⟩
  | gt => cases bc with
    | lt => exact ⟨Ordering.noConfusion, Ordering.noConfusion, Ordering.noConfusion⟩
    | eq =>
      obtain rfl := h.right rfl
      exact ⟨Ordering.noConfusion, fun _ => rfl, fun _ => rfl⟩
    | gt =>
      obtain rfl := h.same rfl
      exact ⟨Ordering.noConfusion, Ordering.noConfusion, fun _ => rfl⟩

end Transits

namespace Value

/-! ## 2. All values -/

instance : Std.TransCmp compareBytes :=
  inferInstanceAs (Std.TransCmp (List.compareLex (Ord.compare : UInt8 → UInt8 → Ordering)))

instance : Std.LawfulEqCmp compareBytes :=
  inferInstanceAs (Std.LawfulEqCmp (List.compareLex (Ord.compare : UInt8 → UInt8 → Ordering)))

theorem compareBytes_swap (l r : Bytes) : compareBytes r l = (compareBytes l r).swap :=
  Std.OrientedCmp.eq_swap

/-- The bytes of the text that a string stands for, its escapes resolved. -/
def textBytes (v : Value) : Bytes := v.decoded.bytes

theorem compare_decoded (a b : Value) :
    a.decoded.compare b.decoded = compareBytes a.textBytes b.textBytes :=
  Text.Decoded.compare_eq a.decoded b.decoded

/-- The bytes of a binary value. -/
def raw : Value → Bytes
  | .binary bytes => bytes
  | _ => []

/-- Only binary values have the rank that they have. -/
theorem raw_eq_nil {v : Value} (h : v.rank ≠ 11) : v.raw = [] := by
  cases v <;> first
    | rfl
    | exact absurd rfl h

theorem exists_binary {v : Value} (h : v.rank = 11) : ∃ bytes, v = .binary bytes := by
  cases v with
  | binary bytes => exact ⟨bytes, rfl⟩
  | bool b => cases b <;> cases h
  | _ => cases h

/-- Kinds decide, and among binary values their bytes. -/
theorem compareKinds_eq (a b : Value) :
    (match a, b with
      | .binary l, .binary r => compareBytes l r
      | _, _ => Ord.compare a.rank b.rank) =
    (Ord.compare a.rank b.rank).then (compareBytes a.raw b.raw) := by
  split
  · rfl
  · next hne =>
    cases hrank : Ord.compare a.rank b.rank with
    | lt => rfl
    | gt => rfl
    | eq =>
      have hrank : a.rank = b.rank := Std.LawfulEqOrd.eq_of_compare hrank
      have ha : a.rank ≠ 11 := fun ha => by
        obtain ⟨l, rfl⟩ := exists_binary ha
        obtain ⟨r, rfl⟩ := exists_binary (hrank.symm.trans ha)
        exact hne l r rfl rfl
      rw [raw_eq_nil ha, raw_eq_nil (hrank ▸ ha)]
      rfl

variable {D : Decimals} {a b : Value}

theorem compareScalars_numbers {m n : Number} (ha : a.number? = some m) (hb : b.number? = some n) :
    compareScalars D a b = compareNumbers D m n := by
  unfold compareScalars
  rw [ha, hb]

theorem compareScalars_others (h : a.number? = none ∨ b.number? = none) :
    compareScalars D a b =
      if a.isStringLike && b.isStringLike then compareBytes a.textBytes b.textBytes
      else if a.isTrue && b.spellsTrue || b.isTrue && a.spellsTrue then .eq
      else (Ord.compare a.rank b.rank).then (compareBytes a.raw b.raw) := by
  unfold compareScalars
  split
  · next ha hb =>
    rw [ha, hb] at h
    rcases h with h | h <;> cases h
  · rw [compare_decoded]
    exact congrArg (ite _ _) (congrArg (ite _ _) (compareKinds_eq a b))

/-- **Two values compared the other way round.** -/
theorem compareScalars_swap (a b : Value) : compareScalars D b a = (compareScalars D a b).swap := by
  have others (h : a.number? = none ∨ b.number? = none) :
      compareScalars D b a = (compareScalars D a b).swap := by
    rw [compareScalars_others h, compareScalars_others h.symm, Bool.and_comm b.isStringLike,
      Bool.or_comm (b.isTrue && _)]
    split
    · exact compareBytes_swap _ _
    · split
      · rfl
      · rw [Ordering.swap_then, ← Std.OrientedOrd.eq_swap, ← compareBytes_swap]
  cases ha : a.number? with
  | none => exact others (.inl ha)
  | some m => cases hb : b.number? with
    | none => exact others (.inr hb)
    | some n => rw [compareScalars_numbers ha hb, compareScalars_numbers hb ha, compareNumbers_swap]

/-- **A value and itself.** -/
theorem compareScalars_self (a : Value) : compareScalars D a a = .eq := by
  cases ha : a.number? with
  | some n => rw [compareScalars_numbers ha ha, compareNumbers_self]
  | none =>
    have self (bytes : Bytes) : compareBytes bytes bytes = .eq := Std.ReflCmp.compare_self
    rw [compareScalars_others (.inl ha), self, self, Std.ReflOrd.compare_self, Ordering.eq_then,
      ite_self, ite_self]

/-! ## 3. Keys -/

/-- **What fits into the order.** A number of a document is spelled as one, what is read as a double
    is a number and not too near to zero, and what is a string is not the text `true`. -/
structure Orderly (v : Value) : Prop where
  spelled : ∀ text, v = .intText text ∨ v = .uintText text ∨ v = .floatText text →
    ∃ kind, Grammar.Number kind text
  visible : ∀ x, v.number? = some (.float x) →
    ∃ place, Double.key? x = some place ∧ Double.Visible place
  plain : v.spellsTrue = false

/-- The group of kinds that are compared with one another: numbers, strings, or a kind by itself. -/
def group (v : Value) : Nat := if v.isNumeric then 2 else if v.isStringLike then 8 else v.rank

/-- The place of a number, in units of `2^-1074`. -/
def place (v : Value) : Int := (v.number?.bind Number.place?).getD 0

/-- The bytes of a string or of a binary value. -/
def bytes (v : Value) : Bytes := v.textBytes ++ v.raw

/-- What decides between orderly values, the first part first. -/
structure Key where
  group : Nat
  place : Int
  bytes : Bytes

/-- The key of a value. -/
def key (v : Value) : Key := ⟨v.group, v.place, v.bytes⟩

/-- The order of keys. -/
def Key.compare (a b : Key) : Ordering :=
  ((Ord.compare a.group b.group).then (Ord.compare a.place b.place)).then
    (compareBytes a.bytes b.bytes)

instance : Std.TransCmp fun a b : Key => compareBytes a.bytes b.bytes where
  eq_swap := compareBytes_swap _ _
  isLE_trans := Std.TransCmp.isLE_trans

instance : Std.TransCmp Key.compare :=
  inferInstanceAs (Std.TransCmp (compareLex
    (compareLex (compareOn Key.group) (compareOn Key.place))
    fun a b => compareBytes a.bytes b.bytes))

/-- The three sorts of values, and what their rank and their key have to do with one another. -/
inductive OfSort (v : Value) : Prop
  | number (numeric : v.isNumeric = true) (rank : 2 ≤ v.rank ∧ v.rank ≤ 7) (group : v.group = 2)
      (string : v.isStringLike = false) (bytes : v.bytes = [])
  | string (numeric : v.number? = none) (rank : 8 ≤ v.rank ∧ v.rank ≤ 10) (group : v.group = 8)
      (string : v.isStringLike = true) (bytes : v.bytes = v.textBytes)
  | other (numeric : v.number? = none) (rank : v.rank < 2 ∨ 10 < v.rank) (group : v.group = v.rank)
      (string : v.isStringLike = false) (bytes : v.bytes = v.raw)

theorem ofSort (v : Value) : OfSort v := by
  cases v with
  | int | uint | intText | uintText | float | floatText =>
    exact .number rfl (by simp [rank]) rfl rfl rfl
  | string | byteString | escString =>
    exact .string rfl (by simp [rank]) rfl rfl (List.append_nil _)
  | bool b => cases b <;> exact .other rfl (by decide) rfl rfl rfl
  | _ => exact .other rfl (by simp [rank]) rfl rfl rfl

theorem place_of_number? {n : Number} {k : Int} (hn : a.number? = some n) (hk : n.place? = some k) :
    a.place = k := by
  rw [place, hn, Option.bind_some, hk, Option.getD_some]

theorem place_of_none (h : a.number? = none) : a.place = 0 := by
  rw [place, h]
  rfl

/-- **An orderly value of a numeric kind is a number** with a place. -/
theorem Orderly.number (h : a.Orderly) (hn : a.isNumeric = true) :
    ∃ n, a.number? = some n ∧ n.Visible := by
  obtain ⟨n, hsome⟩ : ∃ n, a.number? = some n := by
    rw [← Option.isSome_iff_exists]
    cases a with
    | int | uint | float => rfl
    | intText text =>
      obtain ⟨_, hk⟩ := h.spelled text (.inl rfl)
      exact (number?_isSome hk).1
    | uintText text =>
      obtain ⟨_, hk⟩ := h.spelled text (.inr (.inl rfl))
      exact (number?_isSome hk).2.1
    | floatText text =>
      obtain ⟨_, hk⟩ := h.spelled text (.inr (.inr rfl))
      exact (number?_isSome hk).2.2
    | _ => cases hn
  refine ⟨n, hsome, ?_⟩
  cases n with
  | int n => exact ⟨_, rfl, Double.visible_mul_unit _⟩
  | uint n => exact ⟨_, rfl, Double.visible_mul_unit _⟩
  | float x => exact h.visible x hsome

/-- Values of which not both are numbers and not both strings. -/
theorem compareScalars_kinds (ha : a.Orderly) (hb : b.Orderly)
    (hn : a.number? = none ∨ b.number? = none)
    (hs : a.isStringLike = false ∨ b.isStringLike = false) :
    compareScalars D a b = (Ord.compare a.rank b.rank).then (compareBytes a.raw b.raw) := by
  have hs : (a.isStringLike && b.isStringLike) = false := Bool.and_eq_false_iff.mpr hs
  rw [compareScalars_others hn, hs, ha.plain, hb.plain, Bool.and_false, Bool.and_false,
    Bool.or_false, if_neg Bool.false_ne_true, if_neg Bool.false_ne_true]

/-- Where kinds lie in different groups, the groups lie as the kinds do. -/
theorem compare_apart {i j k l : Nat} {o o' o'' : Ordering} (h : i < j ∧ k < l ∨ j < i ∧ l < k) :
    (Ord.compare i j).then o = ((Ord.compare k l).then o').then o'' := by
  rcases h with ⟨hij, hkl⟩ | ⟨hji, hlk⟩
  · rw [Nat.compare_eq_lt.mpr hij, Nat.compare_eq_lt.mpr hkl]
    rfl
  · rw [Nat.compare_eq_gt.mpr hji, Nat.compare_eq_gt.mpr hlk]
    rfl

/-- **Orderly values compare by their keys.** -/
theorem compareScalars_eq (hD : D.Lawful) (ha : a.Orderly) (hb : b.Orderly) :
    compareScalars D a b = a.key.compare b.key := by
  unfold Key.compare key
  dsimp only
  cases a.ofSort with
  | number numeric rank group string bytes => cases b.ofSort with
    | number numeric' rank' group' string' bytes' =>
      obtain ⟨m, hm, j, hj, hvj⟩ := ha.number numeric
      obtain ⟨n, hn, k, hk, hvk⟩ := hb.number numeric'
      rw [compareScalars_numbers hm hn, compareNumbers_eq hD hj hk hvj hvk,
        place_of_number? hm hj, place_of_number? hn hk, group, group', bytes, bytes']
      exact Ordering.then_eq.symm
    | string numeric' rank' group' string' bytes' =>
      rw [compareScalars_kinds ha hb (.inr numeric') (.inl string)]
      exact compare_apart (by omega)
    | other numeric' rank' group' string' bytes' =>
      rw [compareScalars_kinds ha hb (.inr numeric') (.inl string)]
      exact compare_apart (by omega)
  | string numeric rank group string bytes => cases b.ofSort with
    | number numeric' rank' group' string' bytes' =>
      rw [compareScalars_kinds ha hb (.inl numeric) (.inr string')]
      exact compare_apart (by omega)
    | string numeric' rank' group' string' bytes' =>
      rw [compareScalars_others (.inl numeric), string, string', place_of_none numeric,
        place_of_none numeric', group, group', bytes, bytes']
      rfl
    | other numeric' rank' group' string' bytes' =>
      rw [compareScalars_kinds ha hb (.inl numeric) (.inr string')]
      exact compare_apart (by omega)
  | other numeric rank group string bytes =>
    rw [compareScalars_kinds ha hb (.inl numeric) (.inl string)]
    cases b.ofSort with
    | number numeric' rank' group' string' bytes' => exact compare_apart (by omega)
    | string numeric' rank' group' string' bytes' => exact compare_apart (by omega)
    | other numeric' rank' group' string' bytes' =>
      rw [place_of_none numeric, place_of_none numeric', group, group', bytes, bytes',
        show Ord.compare (0 : Int) 0 = .eq from rfl, Ordering.then_eq]

/-- **Orderly values go together**, any three of them. -/
theorem transits_scalars (hD : D.Lawful) {c : Value} (ha : a.Orderly) (hb : b.Orderly)
    (hc : c.Orderly) :
    Transits (compareScalars D a b) (compareScalars D b c) (compareScalars D a c) := by
  rw [compareScalars_eq hD ha hb, compareScalars_eq hD hb hc, compareScalars_eq hD ha hc]
  exact .of_cmp Key.compare a.key b.key c.key

/-- Orderly values that are equal are of one group. -/
theorem group_eq_of_scalars (hD : D.Lawful) (ha : a.Orderly) (hb : b.Orderly)
    (h : compareScalars D a b = .eq) :
    a.group = b.group := by
  rw [compareScalars_eq hD ha hb, Key.compare, Ordering.then_eq_eq, Ordering.then_eq_eq] at h
  exact Std.LawfulEqOrd.eq_of_compare h.1.1

end Value

end Sift
