import Sift.Proofs.Value.Strings

/-!
# Values, ready for computation

A value of a document can be settled: the text of a number is read, and the escapes of a string are
resolved. `settled_keeps_meaning` says what that changes. The settled value lies among all others as
the value itself did, with two exceptions:

* A number past all doubles is no longer a number, as only finite doubles are values.
* A text that is kept as a number but cannot be read as one, which no document has, is compared with
  numbers by kinds alone, and the settled number is of another kind.
-/

namespace Sift

/-! ## 1. Values that are alike -/

/-- The number is no infinite double, nor one that is no number. -/
def Number.isFinite : Number → Bool
  | .float x => Double.isFinite x
  | _ => true

namespace Value

/-- What is kept as a number can be read as one. -/
def Legible (v : Value) : Prop := v.isNumeric = true → ∃ n, v.number? = some n

/-- The value is a number past all doubles. -/
def PastDoubles (v : Value) : Prop := v.number?.any (fun n => !n.isFinite) = true

instance : DecidablePred PastDoubles := fun v =>
  inferInstanceAs (Decidable (v.number?.any (fun n => !n.isFinite) = true))

theorem pastDoubles_iff {v : Value} :
    v.PastDoubles ↔ ∃ n, v.number? = some n ∧ n.isFinite = false := by
  simp [PastDoubles, Option.any_eq_true]

/-- **Values that are alike** in all that comparing looks at, their rank within a group of kinds
    apart. -/
structure Alike (v v' : Value) : Prop where
  number : v.number? = v'.number?
  group : v.group = v'.group
  string : v.isStringLike = v'.isStringLike
  text : v.textBytes = v'.textBytes
  isTrue : v.isTrue = v'.isTrue
  raw : v.raw = v'.raw

variable {D : Decimals} {a b v v' w : Value}

theorem Alike.refl (v : Value) : v.Alike v := ⟨rfl, rfl, rfl, rfl, rfl, rfl⟩

/-- Kinds of different groups lie as the groups do. -/
theorem compare_rank (h : a.group ≠ b.group) :
    Ord.compare a.rank b.rank = Ord.compare a.group b.group := by
  have hless {a b : Value} (h : a.group < b.group) : a.rank < b.rank := by
    cases a.ofSort <;> cases b.ofSort <;> omega
  rcases Nat.lt_or_gt_of_ne h with hlt | hgt
  · rw [Nat.compare_eq_lt.mpr hlt, Nat.compare_eq_lt.mpr (hless hlt)]
  · rw [Nat.compare_eq_gt.mpr hgt, Nat.compare_eq_gt.mpr (hless hgt)]

theorem spellsTrue_eq (v : Value) : v.spellsTrue =
    (v.isStringLike && compareBytes v.textBytes (Utf8.bytes "true") == .eq) := by
  rw [← textBytes_string "true", ← compare_decoded]
  rfl

/-- **What is alike compares alike**, with what can be read. -/
theorem Alike.compareScalars (h : v.Alike v') (hv : v.Legible)
    (hw : v.isNumeric = true → w.Legible) : compareScalars D v w = compareScalars D v' w := by
  by_cases hnumbers : (∃ m, v.number? = some m) ∧ ∃ n, w.number? = some n
  · obtain ⟨⟨m, hm⟩, n, hn⟩ := hnumbers
    rw [compareScalars_numbers hm hn, compareScalars_numbers (h.number ▸ hm) hn]
  have hnone : v.number? = none ∨ w.number? = none := by
    simpa [← Option.ne_none_iff_exists', imp_iff_not_or] using hnumbers
  have hspells : v.spellsTrue = v'.spellsTrue := by
    rw [spellsTrue_eq, spellsTrue_eq, h.string, h.text]
  rw [compareScalars_others hnone, compareScalars_others (h.number ▸ hnone), ← h.string, ← h.text,
    ← h.isTrue, ← hspells, ← h.raw]
  split
  · rfl
  next hstrings =>
  split
  · rfl
  -- kinds decide: they lie in two groups, or else the two values are of one kind
  have hrank : Ord.compare v.rank w.rank = Ord.compare v'.rank w.rank := by
    by_cases hgroup : v.group = w.group
    · have hgroup' := h.group
      cases v.ofSort with
      | number numeric _ group => cases w.ofSort with
        | number numeric' =>
          exact absurd ⟨hv numeric, hw numeric numeric'⟩ hnumbers
        | _ => omega
      | string _ _ group string => cases w.ofSort with
        | string _ _ _ string' => simp [string, string'] at hstrings
        | _ => omega
      | other _ _ group => cases v'.ofSort with
        | other => rw [show v.rank = v'.rank by omega]
        | _ => omega
    · rw [compare_rank hgroup, compare_rank (h.group ▸ hgroup), h.group]
  rw [hrank]

/-- What is alike and no container lies alike among all values that can be read. -/
theorem Alike.compare (h : v.Alike v') (harray : v.group ≠ 15) (hobject : v.group ≠ 16)
    (hv : v.Legible) (hw : v.isNumeric = true → w.Legible) : v.compare D w = v'.compare D w := by
  rw [compare_eq, compare_eq, compareParts_of_group harray hobject,
    compareParts_of_group (h.group ▸ harray) (h.group ▸ hobject), h.compareScalars hv hw]

theorem isNumeric_eq (v : Value) : v.isNumeric = decide (v.group = 2) := by
  cases v with
  | bool b => cases b <;> rfl
  | _ => rfl

theorem isAbsent_eq (v : Value) : v.isAbsent = decide (v.group < 2) := by
  cases v with
  | bool b => cases b <;> rfl
  | _ => rfl

/-- What cannot be read is compared by kinds. -/
theorem compare_of_not_legible (hw : ¬ w.Legible) (v : Value) :
    v.compare D w = Ord.compare v.rank w.rank := by
  obtain ⟨hnumeric, hnone⟩ : w.isNumeric = true ∧ w.number? = none := by
    simpa [Legible, ← Option.ne_none_iff_exists'] using hw
  have hgroup : w.group = 2 := if_pos hnumeric
  have hparts : compareParts D v w = .eq := by
    refine compareParts_others ?_ ?_
    · rintro l r - rfl
      cases hnumeric
    · rintro l r - rfl
      cases hnumeric
  have htrue : w.isTrue = false := by
    cases w <;> first
      | rfl
      | cases hnumeric
  cases w.ofSort with
  | number _ _ _ string =>
    rw [compare_eq, hparts, Ordering.then_eq, compareScalars_others (.inr hnone), spellsTrue_eq w,
      string, htrue, Bool.false_and, Bool.and_false, Bool.and_false, Bool.false_and,
      if_neg Bool.false_ne_true, Bool.or_false, if_neg Bool.false_ne_true, ← compareKinds_eq]
    split
    · cases hnumeric
    · rfl
  | string => omega
  | other => omega

/-! ## 2. Settled values -/

/-- What is read as a number is alike to the value of the number. -/
theorem alike_ofNumber {n : Number} (hn : v.number? = some n) (hf : n.isFinite = true)
    (hnumeric : v.isNumeric = true) : v.Alike (ofNumber n) := by
  have hgroup : v.group = 2 := if_pos hnumeric
  have htext : v.isStringLike = false ∧ v.textBytes = [] ∧ v.isTrue = false ∧ v.raw = [] := by
    cases v <;> first
      | exact ⟨rfl, rfl, rfl, rfl⟩
      | cases hnumeric
  obtain ⟨hstring, hbytes, htrue, hraw⟩ := htext
  cases n with
  | int n => exact ⟨hn, hgroup, hstring, hbytes, htrue, hraw⟩
  | uint n => exact ⟨hn, hgroup, hstring, hbytes, htrue, hraw⟩
  | float x =>
    have hx : Double.isFinite x = true := hf
    rw [ofNumber, ofFloat, if_pos hx]
    exact ⟨hn, hgroup, hstring, hbytes, htrue, hraw⟩

/-- The text of a number, settled. -/
theorem settled_of_text {n : Number} {text : Bytes}
    (hv : v = .intText text ∨ v = .uintText text ∨ v = .floatText text)
    (hn : v.number? = some n) : v.settled = ofNumber n := by
  rcases hv with rfl | rfl | rfl <;> rw [settled, hn]

/-- **A value is alike to the settled value**, if it is not past all doubles. -/
theorem alike_settled (hv : v.Legible) (hf : ¬ v.PastDoubles) : v.Alike v.settled := by
  have number {text : Bytes} (h : v = .intText text ∨ v = .uintText text ∨ v = .floatText text)
      (hnumeric : v.isNumeric = true) : v.Alike v.settled := by
    obtain ⟨n, hn⟩ := hv hnumeric
    rw [settled_of_text h hn]
    refine alike_ofNumber hn ?_ hnumeric
    simpa using fun h => hf (pastDoubles_iff.mpr ⟨n, hn, h⟩)
  cases v with
  | intText text => exact number (.inl rfl) rfl
  | uintText text => exact number (.inr (.inl rfl)) rfl
  | floatText text => exact number (.inr (.inr rfl)) rfl
  | escString body => exact ⟨rfl, rfl, rfl, textBytes_escString body, rfl, rfl⟩
  | _ => exact .refl _

/-- A text that is past all doubles is settled as no number. -/
theorem settled_of_past {text : Bytes}
    (hv : v = .intText text ∨ v = .uintText text ∨ v = .floatText text) (hf : v.PastDoubles) :
    v.settled = .invalid := by
  obtain ⟨n, hn, hf⟩ := pastDoubles_iff.mp hf
  rw [settled_of_text hv hn]
  cases n with
  | float x => exact if_neg (Bool.eq_false_iff.mp hf)
  | int | uint => cases hf

/-! ## 3. Values of documents -/

variable {data : Bytes} {pos : Nat} {t : Token}

/-- What is kept as a number is the text of a number token. -/
theorem text_of_numeric (h : (ofToken t).isNumeric = true) :
    (t.kind = .integer ∨ t.kind = .number) ∧ (ofToken t = .intText t.text ∨
      ofToken t = .uintText t.text ∨ ofToken t = .floatText t.text) := by
  cases hk : t.kind with
  | integer =>
    refine ⟨.inl rfl, ?_⟩
    rw [ofToken, hk]
    dsimp only
    split
    · exact .inl rfl
    · exact .inr (.inl rfl)
  | number =>
    refine ⟨.inr rfl, .inr (.inr ?_)⟩
    rw [ofToken, hk]
  | string | escString =>
    rw [ofToken, hk] at h
    dsimp only at h
    split at h <;> cases h
  | _ =>
    rw [ofToken, hk] at h
    cases h

/-- **The numbers of documents can be read.** -/
theorem legible_ofToken (h : Token.Next data pos t) (hs : t.kind.isScalar = true) :
    (ofToken t).Legible := by
  intro hnumeric
  obtain ⟨hkind, htext⟩ := text_of_numeric hnumeric
  have hnumber : ∃ kind, Grammar.Number kind t.text := by
    have hscalar := h.scalar hs
    generalize t.kind = kind at hkind hscalar
    generalize t.text = text at hscalar
    cases hscalar with
    | number number => exact ⟨kind, number⟩
    | @string escaped => cases escaped <;> rcases hkind with hkind | hkind <;> cases hkind
    | _ => rcases hkind with hkind | hkind <;> cases hkind
  obtain ⟨_, hnumber⟩ := hnumber
  obtain ⟨hint, huint, hfloat⟩ := number?_isSome hnumber
  rw [← Option.isSome_iff_exists]
  rcases htext with htext | htext | htext <;> rw [htext] <;> assumption

/-- A token is no container. -/
theorem group_ofToken (t : Token) : (ofToken t).group < 15 := by
  unfold ofToken
  repeat' split
  all_goals exact Nat.le_of_ble_eq_true rfl

/-- **Settling a value of a document keeps its meaning.** Unless it is a number past all doubles,
    which is no value then, what it is settled as is absent, a number or a string if it is itself,
    and compares as it does with all other values. This leaves out numbers compared with a text that
    is kept as a number but is none: there, kinds decide. -/
theorem settled_keeps_meaning (D : Decimals) (h : Token.Next data pos t)
    (hs : t.kind.isScalar = true) :
    (¬ (ofToken t).PastDoubles →
      ((ofToken t).settled.isAbsent = (ofToken t).isAbsent ∧
        (ofToken t).settled.isNumeric = (ofToken t).isNumeric ∧
        (ofToken t).settled.isStringLike = (ofToken t).isStringLike) ∧
      ∀ w : Value, ((ofToken t).isNumeric = true → w.Legible) →
        (ofToken t).settled.compare D w = (ofToken t).compare D w ∧
          w.compare D (ofToken t).settled = w.compare D (ofToken t)) ∧
    ((ofToken t).PastDoubles → (ofToken t).settled = .invalid) ∧
    ∀ w : Value, ¬ w.Legible →
      (ofToken t).compare D w = Ord.compare (ofToken t).rank w.rank ∧
        (ofToken t).settled.compare D w = Ord.compare (ofToken t).settled.rank w.rank := by
  have hlegible := legible_ofToken h hs
  refine ⟨fun hpast => ?_, fun hpast => ?_, fun w hw =>
    ⟨compare_of_not_legible hw _, compare_of_not_legible hw _⟩⟩
  · have halike := alike_settled hlegible hpast
    have hgroup := group_ofToken t
    refine ⟨⟨?_, ?_, halike.string.symm⟩, fun w hw => ?_⟩
    · rw [isAbsent_eq, isAbsent_eq, halike.group]
    · rw [isNumeric_eq, isNumeric_eq, halike.group]
    · have hcompare := halike.compare (D := D) (by omega) (by omega) hlegible hw
      refine ⟨hcompare.symm, ?_⟩
      rw [compare_swap (ofToken t).settled, compare_swap (ofToken t), hcompare]
  · obtain ⟨n, hn, -⟩ := pastDoubles_iff.mp hpast
    cases (ofToken t).ofSort with
    | number numeric => exact settled_of_past (text_of_numeric numeric).2 hpast
    | string none | other none =>
      rw [none] at hn
      cases hn

/-- An integer past all words. -/
def pastWords : Token := ⟨.integer, 0, Utf8.bytes "18446744073709551616"⟩

/-- It is settled as a double, and compares with the greatest word as it did. -/
theorem settled_keeps_meaning_pastWords :
    (ofToken pastWords).settled.compare .standard (uint (-1)) =
        (ofToken pastWords).compare .standard (uint (-1)) ∧
      (uint (-1)).compare .standard (ofToken pastWords).settled =
        (uint (-1)).compare .standard (ofToken pastWords) := by
  have hnext : Token.Next (Utf8.bytes "18446744073709551616") 0 pastWords := ⟨[], rfl⟩
  refine ((settled_keeps_meaning .standard hnext rfl).1 ?_).2 (uint (-1)) fun _ _ => ⟨_, rfl⟩
  decide +kernel

/-- **Settling loses numbers past all doubles**: what is equal to itself as it is written is no
    number any more. And compared with a text that is no number, a number that is settled comes
    before it, although it came after it. -/
theorem settling_tells_apart :
    (Token.Next (Utf8.bytes "1e400") 0 ⟨.number, 0, Utf8.bytes "1e400"⟩ ∧
      (ofToken ⟨.number, 0, Utf8.bytes "1e400"⟩).isNumeric = true ∧
      (ofToken ⟨.number, 0, Utf8.bytes "1e400"⟩).settled.isNumeric = false ∧
      (ofToken ⟨.number, 0, Utf8.bytes "1e400"⟩).compare .standard (int 0) = .gt ∧
      (ofToken ⟨.number, 0, Utf8.bytes "1e400"⟩).settled.compare .standard (int 0) = .lt) ∧
    Token.Next (Utf8.bytes "5") 0 ⟨.integer, 0, Utf8.bytes "5"⟩ ∧
      (ofToken ⟨.integer, 0, Utf8.bytes "5"⟩).compare .standard (intText (Utf8.bytes "x")) = .gt ∧
      (ofToken ⟨.integer, 0, Utf8.bytes "5"⟩).settled.compare .standard
        (intText (Utf8.bytes "x")) = .lt := by
  refine ⟨⟨⟨[], rfl⟩, rfl, ?_, ?_, ?_⟩, ⟨[], rfl⟩, ?_, ?_⟩
  all_goals decide +kernel

end Value

end Sift
