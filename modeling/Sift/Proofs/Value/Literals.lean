import Sift.Value.Json
import Sift.Proofs.Json.Forms
import Sift.Proofs.Value.Strings
import Mathlib

/-!
# Literals and documents

A literal of an expression and a value of a document come to be in different ways: integers as words
or as digits, strings plain or with their escapes, containers as they are written out or as they
stand there. `literals_equal_documents`: a value of a document whose bytes spell the literal equals
it, from either side.

`Means` says of a scalar, of whichever origin, that it is the literal, and `Doc.Reads` the same of a
document and its tokens. Two values that mean the same are equal (`compareScalars_of_means`), hence
two documents (`Doc.order_of_reads`); and a text that spells a literal is such a document
(`Json.Spells.exists_doc`), the text that it is written as included.
-/

namespace Sift

open Grammar

variable {D : Decimals} {J : Json.Codec} {data text : Bytes} {pos : Nat} {t : Token} {v : Json}

/-! ## 1. Scalars -/

/-- A literal that is no container. -/
def Json.IsScalar : Json → Prop
  | .array _ | .object _ => False
  | _ => True

namespace Value

/-- **The value is the literal**, which is no container. -/
def Means (x : Value) : Json → Prop
  | .null => x = .null
  | .bool b => x = .bool b
  | .number n => ∃ unsigned z, n.integer? = some z ∧ x.Word unsigned z
  | .string s => x.isStringLike = true ∧ x.textBytes = Utf8.bytes s
  | .array _ | .object _ => False

variable {x y : Value}

theorem Means.ofJson (h : v.Spells text) (hv : v.IsScalar) : (ofJson J v).Means v := by
  cases v with
  | null => rfl
  | bool b => rfl
  | number n =>
    obtain ⟨z, hz, -⟩ := h
    cases n with
    | natural n =>
      cases hz
      rw [Value.ofJson]
      split
      · next hfits =>
        have hfits := Numeral.fitsSigned_iff.mp hfits
        have hword := Word.int (Int64.ofInt n.toNat)
        rw [Int64.toInt_ofInt_of_le hfits.1 hfits.2] at hword
        exact ⟨false, _, rfl, hword⟩
      · exact ⟨true, _, rfl, .uint n⟩
    | negative n =>
      cases hz
      exact ⟨false, _, rfl, .int n⟩
    | real x => cases hz
  | string s => exact ⟨rfl, rfl⟩
  | array vs => cases hv
  | object vs => cases hv

theorem Means.present (h : x.Means v) : x.isAbsent = false := by
  cases v with
  | null =>
    cases h
    rfl
  | bool b =>
    cases h
    rfl
  | number n =>
    obtain ⟨_, _, -, hword⟩ := h
    cases hword <;> rfl
  | string s =>
    obtain ⟨hlike, -⟩ := h
    cases x <;> first
      | rfl
      | cases hlike
  | array _ => cases h
  | object _ => cases h

/-- Words of one value are equal, of whichever sort they are. -/
theorem compareNumbers_words {m n : Number} {u w : Bool} {z : Int} (hm : m.Word u z)
    (hn : n.Word w z) : compareNumbers D m n = .eq := by
  cases hm with
  | int k =>
    generalize hz : k.toInt = z at hn
    cases hn with
    | int l => rw [compareNumbers, hz, Std.ReflOrd.compare_self]
    | uint l => rw [compareNumbers, hz, Std.ReflOrd.compare_self]
  | uint k =>
    generalize hz : (k.toNat : Int) = z at hn
    cases hn with
    | int l => rw [compareNumbers, hz, Std.ReflOrd.compare_self]
    | uint l => rw [compareNumbers, Int.ofNat_inj.mp hz, Std.ReflOrd.compare_self]

/-- **Values that mean the same are equal.** -/
theorem compareScalars_of_means (hx : x.Means v) (hy : y.Means v) : compareScalars D x y = .eq := by
  cases v with
  | null =>
    cases hx
    cases hy
    exact compareScalars_self _
  | bool b =>
    cases hx
    cases hy
    exact compareScalars_self _
  | number n =>
    obtain ⟨_, z, hz, hx⟩ := hx
    obtain ⟨_, z', hz', hy⟩ := hy
    obtain rfl := Option.some.inj (hz.symm.trans hz')
    obtain ⟨a, ha, hwa⟩ := hx.number?
    obtain ⟨b, hb, hwb⟩ := hy.number?
    rw [compareScalars_numbers ha hb]
    exact compareNumbers_words hwa hwb
  | string s =>
    obtain ⟨hx, hbytes⟩ := hx
    obtain ⟨hy, hbytes'⟩ := hy
    rw [compareScalars_strings hx hy, hbytes, hbytes']
    exact Std.ReflCmp.compare_self
  | array _ => cases hx
  | object _ => cases hx

end Value

/-! ## 2. Scalars of documents -/

/-- The text of a scalar tells its kind. -/
theorem Grammar.Scalar.kind_unique {kind kind' : TokenKind} (h : Scalar kind text)
    (h' : Scalar kind' text) : kind = kind' := by
  obtain ⟨b, more, rfl, -, hl⟩ := h.lexeme .nil 0
  obtain ⟨b', more', heq, -, hl'⟩ := h'.lexeme .nil 0
  obtain ⟨rfl, rfl⟩ := List.cons.inj heq
  rw [hl] at hl'
  exact congrArg (·.1.kind) (Except.ok.inj hl')

theorem JsonNumber.integer?_fits {n : JsonNumber} {z : Int} (h : n.integer? = some z) :
    -2 ^ 63 ≤ z ∧ z < 2 ^ 64 := by
  cases n with
  | natural n =>
    cases h
    have := n.toNat_lt
    omega
  | negative n =>
    cases h
    have := n.toInt_lt
    have := n.le_toInt
    omega
  | real x => cases h

namespace Value

/-- A string means what it spells. -/
theorem means_string {s : String} (h : Json.SpellsString s text) : ∃ kind, kind.isString = true ∧
    Scalar kind text ∧ ∀ pos, (ofToken ⟨kind, pos, text⟩).Means (.string s) := by
  obtain ⟨body, hspells, rfl⟩ := h
  obtain ⟨escaped, hbody⟩ := body_of_spells hspells
  refine ⟨stringKind escaped, by cases escaped <;> rfl, .string hbody, fun pos => ?_⟩
  have hs : (stringKind escaped).isString = true := by cases escaped <;> rfl
  have hinside := Token.body_eq
    (t := ⟨stringKind escaped, pos, '"'.toUInt8 :: (Utf8.encode body ++ ['"'.toUInt8])⟩) hs rfl
  have hread : Utf8.text? (Utf8.encode body) = some (String.ofList body) :=
    Utf8.text?_eq_some_iff.mpr (by rw [Utf8.bytes, String.toList_ofList])
  obtain ⟨hlike, hbytes⟩ := ofToken_body (by rw [hinside]; exact hbody.kind_eq)
    (by rw [hinside]; exact hread)
  refine ⟨hlike, hbytes.trans ?_⟩
  rw [unescaped, String.toList_ofList, hspells.unescape, String.ofList_toList]

/-- **A scalar means what it spells**, and is a token. -/
theorem means_scalar (h : v.Spells text) (hv : v.IsScalar) :
    ∃ kind, Scalar kind text ∧ ∀ pos, (ofToken ⟨kind, pos, text⟩).Means v := by
  cases v with
  | null =>
    cases h
    exact ⟨.null, .null, fun _ => rfl⟩
  | bool b =>
    cases b with
    | true =>
      cases h
      exact ⟨.true, .true, fun _ => rfl⟩
    | false =>
      cases h
      exact ⟨.false, .false, fun _ => rfl⟩
  | number n =>
    obtain ⟨z, hz, hspelled⟩ := h
    refine ⟨.integer, .number (number_integer_iff.mpr ⟨z, hspelled⟩), fun pos => ?_⟩
    obtain ⟨unsigned, hword⟩ := word_ofToken (t := ⟨.integer, pos, text⟩) rfl hspelled
      (JsonNumber.integer?_fits hz)
    exact ⟨unsigned, z, hz, hword⟩
  | string s =>
    obtain ⟨kind, -, hscalar, hmeans⟩ := means_string h
    exact ⟨kind, hscalar, hmeans⟩
  | array vs => cases hv
  | object vs => cases hv

theorem Means.ofToken (h : v.Spells t.text) (hv : v.IsScalar) (ht : Scalar t.kind t.text) :
    (ofToken t).Means v := by
  obtain ⟨kind, hscalar, hmeans⟩ := means_scalar h hv
  have hmeans := hmeans t.offset
  rwa [hscalar.kind_unique ht] at hmeans

end Value

/-! ## 3. Documents -/

namespace Doc

mutual

/-- **A document reads as the literal**, scalar by scalar and key by key. -/
def Reads : Doc → Json → Prop
  | .scalar t, v => (Value.ofToken t).Means v
  | .array _ items _, .array vs => ReadsItems items vs
  | .object _ members _, .object vs => ReadsMembers members vs
  | _, _ => False

/-- The same of the elements of an array. -/
def ReadsItems : List Doc → List Json → Prop
  | [], [] => True
  | x :: xs, v :: vs => x.Reads v ∧ ReadsItems xs vs
  | _, _ => False

/-- The same of the members of an object. -/
def ReadsMembers : List (Token × Doc) → List (String × Json) → Prop
  | [], [] => True
  | (key, x) :: xs, (name, v) :: vs =>
    (Value.ofToken key).Means (.string name) ∧ x.Reads v ∧ ReadsMembers xs vs
  | _, _ => False

end

section Reads

variable {x y : Doc}

theorem Reads.scalar (h : x.Reads v) (hv : v.IsScalar) :
    ∃ t, x = .scalar t ∧ (Value.ofToken t).Means v := by
  cases x with
  | scalar t => exact ⟨t, rfl, h⟩
  | _ => cases v <;> first
    | cases h
    | cases hv

theorem Reads.array {vs : List Json} (h : x.Reads (.array vs)) :
    ∃ o items stop, x = .array o items stop ∧ ReadsItems items vs := by
  cases x with
  | array o items stop => exact ⟨o, items, stop, rfl, h⟩
  | _ => cases h

theorem Reads.object {vs : List (String × Json)} (h : x.Reads (.object vs)) :
    ∃ o members stop, x = .object o members stop ∧ ReadsMembers members vs := by
  cases x with
  | object o members stop => exact ⟨o, members, stop, rfl, h⟩
  | _ => cases h

theorem order_of_scalar (hx : x.Reads v) (hy : y.Reads v) (hv : v.IsScalar) :
    x.order D y = .eq := by
  obtain ⟨s, rfl, hs⟩ := hx.scalar hv
  obtain ⟨t, rfl, ht⟩ := hy.scalar hv
  exact Value.compareScalars_of_means hs ht

end Reads

mutual

/-- **Documents that read as one literal are equal.** -/
theorem order_of_reads : ∀ {v : Json} {x y : Doc}, x.Reads v → y.Reads v → x.order D y = .eq
  | .null, _, _, hx, hy => order_of_scalar hx hy trivial
  | .bool _, _, _, hx, hy => order_of_scalar hx hy trivial
  | .number _, _, _, hx, hy => order_of_scalar hx hy trivial
  | .string _, _, _, hx, hy => order_of_scalar hx hy trivial
  | .array vs, x, y, hx, hy => by
    obtain ⟨_, xs, _, rfl, hxs⟩ := hx.array
    obtain ⟨_, ys, _, rfl, hys⟩ := hy.array
    exact orderItems_of_reads hxs hys
  | .object vs, x, y, hx, hy => by
    obtain ⟨_, xs, _, rfl, hxs⟩ := hx.object
    obtain ⟨_, ys, _, rfl, hys⟩ := hy.object
    exact orderMembers_of_reads hxs hys

theorem orderItems_of_reads : ∀ {vs : List Json} {xs ys : List Doc}, ReadsItems xs vs →
    ReadsItems ys vs → orderItems D xs ys = .eq
  | [], xs, ys, hx, hy => by
    cases xs with
    | nil => cases ys with
      | nil => rfl
      | cons _ _ => cases hy
    | cons _ _ => cases hx
  | v :: vs, xs, ys, hx, hy => by
    cases xs with
    | nil => cases hx
    | cons x xs => cases ys with
      | nil => cases hy
      | cons y ys =>
        rw [orderItems, order_of_reads hx.1 hy.1, orderItems_of_reads hx.2 hy.2]
        rfl

theorem orderMembers_of_reads : ∀ {vs : List (String × Json)} {xs ys : List (Token × Doc)},
    ReadsMembers xs vs → ReadsMembers ys vs → orderMembers D xs ys = .eq
  | [], xs, ys, hx, hy => by
    cases xs with
    | nil => cases ys with
      | nil => rfl
      | cons _ _ => cases hy
    | cons _ _ => cases hx
  | (name, v) :: vs, xs, ys, hx, hy => by
    cases xs with
    | nil => cases hx
    | cons m xs => cases ys with
      | nil => cases hy
      | cons m' ys =>
        rw [orderMembers, Value.compareScalars_of_means hx.1 hy.1, order_of_reads hx.2.1 hy.2.1,
          orderMembers_of_reads hx.2.2 hy.2.2]
        rfl

end

end Doc

namespace Json

theorem exists_scalar (h : v.Spells text) (hv : v.IsScalar) (pos : Nat) :
    ∃ d : Doc, d.Spelled pos text ∧ d.Reads v := by
  obtain ⟨kind, hscalar, hmeans⟩ := Value.means_scalar h hv
  exact ⟨.scalar ⟨kind, pos, text⟩, ⟨rfl, rfl, hscalar⟩, hmeans pos⟩

mutual

/-- **What spells a literal is a document** that reads as it. -/
theorem Spells.exists_doc : ∀ {v : Json} {text : Bytes}, v.Spells text → ∀ pos : Nat,
    ∃ d : Doc, d.Spelled pos text ∧ d.Reads v
  | .null, _, h, pos => exists_scalar h trivial pos
  | .bool _, _, h, pos => exists_scalar h trivial pos
  | .number _, _, h, pos => exists_scalar h trivial pos
  | .string _, _, h, pos => exists_scalar h trivial pos
  | .array vs, text, h, pos => by
    obtain ⟨inside, htext, h⟩ := h
    obtain ⟨items, hitems, hreads⟩ := SpellsElements.exists_items h (pos + 1)
    exact ⟨.array _ items _, ⟨rfl, rfl, inside, htext, hitems⟩, hreads⟩
  | .object vs, text, h, pos => by
    obtain ⟨inside, htext, h⟩ := h
    obtain ⟨members, hmembers, hreads⟩ := SpellsMembers.exists_members h (pos + 1)
    exact ⟨.object _ members _, ⟨rfl, rfl, inside, htext, hmembers⟩, hreads⟩

theorem SpellsElements.exists_items {Lead : Bytes → Prop} : ∀ {vs : List Json} {text : Bytes},
    SpellsElements Lead vs text → ∀ pos : Nat,
      ∃ items, Doc.SpelledItems Lead pos items text ∧ Doc.ReadsItems items vs
  | [], _, h, _ => ⟨[], h, trivial⟩
  | v :: vs, text, h, pos => by
    obtain ⟨lead, own, more, htext, hlead, hown, hmore⟩ := h
    obtain ⟨d, hd, hreads⟩ := Spells.exists_doc hown (pos + lead.length)
    obtain ⟨items, hitems, hrest⟩ :=
      SpellsElements.exists_items hmore (pos + lead.length + own.length)
    exact ⟨d :: items, ⟨lead, own, more, htext, hlead, hd, hitems⟩, hreads, hrest⟩

theorem SpellsMembers.exists_members {Lead : Bytes → Prop} :
    ∀ {vs : List (String × Json)} {text : Bytes}, SpellsMembers Lead vs text → ∀ pos : Nat,
      ∃ members, Doc.SpelledMembers Lead pos members text ∧ Doc.ReadsMembers members vs
  | [], _, h, _ => ⟨[], h, trivial⟩
  | (name, v) :: vs, text, h, pos => by
    obtain ⟨lead, key, colon, own, more, htext, hlead, hkey, hcolon, hown, hmore⟩ := h
    obtain ⟨kind, hstring, hscalar, hmeans⟩ := Value.means_string hkey
    obtain ⟨d, hd, hreads⟩ :=
      Spells.exists_doc hown (pos + lead.length + key.length + colon.length)
    obtain ⟨members, hmembers, hrest⟩ := SpellsMembers.exists_members hmore
      (pos + lead.length + key.length + colon.length + own.length)
    exact ⟨(⟨kind, pos + lead.length, key⟩, d) :: members,
      ⟨lead, key, colon, own, more, htext, hlead, ⟨rfl, rfl, hscalar, hstring⟩, hcolon, hd,
        hmembers⟩, hmeans _, hreads, hrest⟩

end

end Json

/-! ## 4. Literals -/

/-- What a span begins with. -/
theorem Span.getElem?_offset {s : Span} {b : UInt8} {more : Bytes}
    (h : s.text data = b :: more) : data[s.offset]? = some b := by
  have hhead := congrArg List.head? h
  rw [Span.text, List.head?_take, List.head?_cons, List.head?_drop] at hhead
  split at hhead
  · cases hhead
  · exact hhead

namespace Doc

variable {d : Doc}

/-- What stands where a scalar lies is the scalar. -/
theorem scalar_text (h : (Doc.scalar t).Lies data) :
    (Doc.scalar t).span.text data = t.text ∧ Scalar t.kind t.text := by
  obtain ⟨hs, hn⟩ := h
  obtain ⟨hk, ho, hc⟩ := TokenKind.of_isScalar hs
  obtain ⟨-, hlt, -, rest, hdrop, -⟩ := hn.split hk
  refine ⟨?_, hn.scalar hs⟩
  show (data.drop t.offset).take (t.stop - t.offset) = t.text
  rw [hdrop, show t.stop - t.offset = t.text.length from Nat.add_sub_cancel_left ..,
    List.take_left]

/-- What begins with a bracket is an array. -/
theorem value_of_bracket {more : Bytes} (hd : d.Lies data)
    (h : d.span.text data = '['.toUInt8 :: more) : d.value data = .array (d.span.text data) := by
  have hkind := (opensArray_iff hd).mp (beq_iff_eq.mpr (Span.getElem?_offset h))
  cases d with
  | array o items stop => rfl
  | scalar t =>
    have hs := hd.1
    rw [show t.kind = .arrayStart from hkind] at hs
    cases hs
  | object o members stop =>
    cases hd.1.symm.trans hkind

/-- What begins with a brace is an object. -/
theorem value_of_brace {more : Bytes} (hd : d.Lies data)
    (h : d.span.text data = '\x7b'.toUInt8 :: more) :
    d.value data = .object (d.span.text data) := by
  have hkind := (opensObject_iff hd).mp (beq_iff_eq.mpr (Span.getElem?_offset h))
  cases d with
  | object o members stop => rfl
  | scalar t =>
    have hs := hd.1
    rw [show t.kind = .objectStart from hkind] at hs
    cases hs
  | array o items stop =>
    cases hd.1.symm.trans hkind

/-- What reads as a scalar is one. -/
theorem exists_scalar {kind : TokenKind} (hd : d.Lies data)
    (h : Scalar kind (d.span.text data)) : ∃ t, d = .scalar t := by
  obtain ⟨b, more, htext, -, hl⟩ := h.lexeme .nil 0
  obtain ⟨harray, hobject, -⟩ := Token.lexeme_first hl
  have hb := Span.getElem?_offset htext
  have hs := h.isScalar
  cases d with
  | scalar t => exact ⟨t, rfl⟩
  | array o items stop =>
    have hopens := (opensArray_iff hd).mpr hd.1
    rw [Span.opensArray, hb, beq_iff_eq, Option.some.injEq] at hopens
    rw [show kind = .arrayStart from harray.mpr hopens] at hs
    cases hs
  | object o members stop =>
    have hopens := (opensObject_iff hd).mpr hd.1
    rw [Span.opensObject, hb, beq_iff_eq, Option.some.injEq] at hopens
    rw [show kind = .objectStart from hobject.mpr hopens] at hs
    cases hs

end Doc

namespace Value

/-- Values that are there and that tell nothing apart are equal. -/
theorem equals_of_compare {x y : Value} (hx : x.isAbsent = false) (hy : y.isAbsent = false)
    (h : x.compare D y = .eq) : x.equals D y = true := by
  rw [equals, hx, hy, h]
  rfl

theorem compareContainers_spelled {text' : Bytes} (h : v.Spells text) (h' : v.Spells text') :
    compareContainers D text text' = .eq := by
  obtain ⟨d, hd, hreads⟩ := h.exists_doc 0
  obtain ⟨d', hd', hreads'⟩ := h'.exists_doc 0
  have htext : d.Text text := ⟨[], text, [], (List.append_nil _).symm, gap_nil, hd, gap_nil⟩
  have htext' : d'.Text text' := ⟨[], text', [], (List.append_nil _).symm, gap_nil, hd', gap_nil⟩
  rw [htext.compareContainers htext', Doc.order_of_reads hreads hreads']

/-- Scalars that mean the same are equal. -/
theorem equals_scalars {x y : Value} (hx : x.Means v) (hy : y.Means v)
    (hparts : compareParts D x y = .eq) : x.equals D y = true := by
  refine equals_of_compare hx.present hy.present ?_
  rw [compare_eq, compareScalars_of_means hx hy, hparts]
  rfl

theorem equals_scalar_document {d : Doc} (hd : d.Lies data)
    (h : v.Spells (d.span.text data)) (hv : v.IsScalar) :
    (d.value data).equals D (ofJson J v) = true ∧ (ofJson J v).equals D (d.value data) = true := by
  obtain ⟨kind, hscalar, -⟩ := means_scalar h hv
  obtain ⟨t, rfl⟩ := Doc.exists_scalar hd hscalar
  obtain ⟨htext, ht⟩ := Doc.scalar_text hd
  rw [htext] at h
  have hdoc : (ofToken t).Means v := Means.ofToken h hv ht
  have hliteral : (ofJson J v).Means v := Means.ofJson h hv
  have hparts := compareParts_ofToken (D := D) t (ofJson J v)
  have hswap := (compareParts_swap (ofToken t) (ofJson J v)).trans (congrArg Ordering.swap hparts)
  exact ⟨equals_scalars hdoc hliteral hparts, equals_scalars hliteral hdoc hswap⟩

/-- **A value of a document equals the literal that it spells**, from either side. Numbers are
    integers of words, and strings may have any escapes, keys included; a container is compared
    with the text that the literal is written as. -/
theorem literals_equal_documents (D : Decimals) (hJ : J.Lawful) {d : Doc} (hd : d.Lies data)
    (h : v.Spells (d.span.text data)) :
    (d.value data).equals D (ofJson J v) = true ∧ (ofJson J v).equals D (d.value data) = true := by
  cases v with
  | array vs =>
    obtain ⟨inside, htext, -⟩ := id h
    rw [Doc.value_of_bracket hd htext]
    exact ⟨equals_of_compare rfl rfl (compareContainers_spelled h (hJ.spelled h)),
      equals_of_compare rfl rfl (compareContainers_spelled (hJ.spelled h) h)⟩
  | object vs =>
    obtain ⟨inside, htext, -⟩ := id h
    rw [Doc.value_of_brace hd htext]
    exact ⟨equals_of_compare rfl rfl (compareContainers_spelled h (hJ.spelled h)),
      equals_of_compare rfl rfl (compareContainers_spelled (hJ.spelled h) h)⟩
  | null | bool _ | number _ | string _ => exact equals_scalar_document hd h trivial

end Value

/-- The array of the letter `a`, which is escaped there. -/
def escapedLetter : Bytes := Utf8.bytes "[ \"\\u0061\"]"

/-- The tokens of that array. -/
def escapedLetterDoc : Doc := .array ⟨.arrayStart, 0, ['['.toUInt8]⟩
  [.scalar ⟨.escString, 2, Utf8.bytes "\"\\u0061\""⟩] 11

theorem text_escapedLetter : escapedLetterDoc.Text escapedLetter := by
  have hspace : Gap [0x20] := by simp [Gap]
  have hbody : Body true (Utf8.bytes "\\u0061") :=
    .unicode (.inl (by decide)) (.inl (by decide)) (.inl (by decide)) (.inl (by decide)) .nil
  refine ⟨[], _, [], (List.append_nil _).symm, gap_nil,
    ⟨rfl, rfl, Utf8.bytes " \"\\u0061\"", rfl, ?_⟩, gap_nil⟩
  exact ⟨[0x20], Utf8.bytes "\"\\u0061\"", [], rfl, hspace, ⟨rfl, rfl, .string hbody⟩, gap_nil⟩

theorem spells_escapedLetter : Json.Spells (.array [.string "a"]) escapedLetter := by
  have hspace : Gap [0x20] := by simp [Gap]
  have hunit : Text.CodeUnit 'a'.toNat ['0', '0', '6', '1'] :=
    @Text.CodeUnit.mk 0 0 6 1 _ _ _ _ (.inl rfl) (.inl rfl) (.inl rfl) (.inl rfl)
  refine ⟨Utf8.bytes " \"\\u0061\"", rfl, [0x20], Utf8.bytes "\"\\u0061\"", [], rfl, hspace, ?_,
    gap_nil⟩
  exact ⟨['\\', 'u', '0', '0', '6', '1'], .unit hunit .nil, rfl⟩

namespace Value

/-- An array as it is written and as a literal. -/
theorem literals_equal_documents_escapedLetter :
    (array escapedLetter).equals .standard (ofJson .standard (.array [.string "a"])) = true ∧
      (ofJson .standard (.array [.string "a"])).equals .standard (array escapedLetter) = true := by
  have htext : escapedLetterDoc.span.text escapedLetter = escapedLetter := by decide
  have hvalue : escapedLetterDoc.value escapedLetter = array escapedLetter :=
    congrArg Value.array htext
  have h := literals_equal_documents .standard Json.Codec.lawful_standard
    text_escapedLetter.whole.2.1 (htext.symm ▸ spells_escapedLetter)
  rwa [hvalue] at h

end Value

end Sift
