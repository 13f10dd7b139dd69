import Mathlib
import Sift.Proofs.Value.Strings
import Sift.Walk.Parts

/-!
# Containers by the trees that they spell

No tree is made of a container to compare it. `Parsed` is the tree that would be made: keys are the
texts that they stand for, and scalars stay the tokens that they are. The order of trees is that of
the library's lists: elements in their order, members in theirs, the key before the value, a list
before a longer one that begins like it.

`containers_compare_as_trees`: every document that is UTF-8 has its tree, and the tokens of any two
such documents tell the order of their trees. So nothing is left to compare byte by byte.
-/

namespace Sift

variable {D : Decimals} {data : Bytes} {pos : Nat} {t : Token}

/-- A document as a parser would give it: keys are read, and the order of members is kept. -/
inductive Parsed
  | scalar (token : Token)
  | array (items : List Parsed)
  | object (members : List (String × Parsed))

namespace Parsed

/-! ## 1. The order of trees -/

/-- Scalars come before arrays, and arrays before objects. -/
def sort : Parsed → Nat
  | .scalar _ => 0
  | .array _ => 1
  | .object _ => 2

/-- Two texts, by the bytes of their characters. -/
def compareTexts (s t : String) : Ordering :=
  List.compareLex Ord.compare (Utf8.bytes s) (Utf8.bytes t)

mutual

/-- **The order of two trees.** -/
def order (D : Decimals) : Parsed → Parsed → Ordering
  | .scalar s, .scalar t => (Value.ofToken s).compare D (.ofToken t)
  | .array xs, .array ys => orderItems D xs ys
  | .object xs, .object ys => orderMembers D xs ys
  | x, y => Ord.compare x.sort y.sort

/-- Elements, one after the other. -/
def orderItems (D : Decimals) : List Parsed → List Parsed → Ordering
  | [], [] => .eq
  | [], _ :: _ => .lt
  | _ :: _, [] => .gt
  | x :: xs, y :: ys => (x.order D y).then (orderItems D xs ys)

/-- Members, one after the other. -/
def orderMembers (D : Decimals) : List (String × Parsed) → List (String × Parsed) → Ordering
  | [], [] => .eq
  | [], _ :: _ => .lt
  | _ :: _, [] => .gt
  | (key, x) :: xs, (key', y) :: ys =>
    ((compareTexts key key').then (x.order D y)).then (orderMembers D xs ys)

end

/-- Arrays are ordered as lists of their elements. -/
theorem order_array : ∀ xs ys : List Parsed,
    (array xs).order D (array ys) = List.compareLex (order D) xs ys
  | [], [] => rfl
  | [], _ :: _ => rfl
  | _ :: _, [] => rfl
  | x :: xs, y :: ys => by
    have ih := order_array xs ys
    rw [order] at ih ⊢
    rw [orderItems, ih, List.compareLex]
    cases x.order D y <;> rfl

/-- Objects are ordered as lists of pairs. -/
theorem order_object : ∀ xs ys : List (String × Parsed),
    (object xs).order D (object ys) =
      List.compareLex (fun a b => (compareTexts a.1 b.1).then (a.2.order D b.2)) xs ys
  | [], [] => rfl
  | [], _ :: _ => rfl
  | _ :: _, [] => rfl
  | (key, x) :: xs, (key', y) :: ys => by
    have ih := order_object xs ys
    rw [order] at ih ⊢
    rw [orderMembers, ih, List.compareLex]
    cases (compareTexts key key').then (x.order D y) <;> rfl

end Parsed

/-! ## 2. The tree of a document -/

namespace Doc

mutual

/-- **The tree of a document**, if all its keys are texts. -/
def parsed? : Doc → Option Parsed
  | .scalar t => some (.scalar t)
  | .array _ items _ => (parsedItems? items).map .array
  | .object _ members _ => (parsedMembers? members).map .object

/-- The trees of several values. -/
def parsedItems? : List Doc → Option (List Parsed)
  | [] => some []
  | x :: rest => do
    let tree ← x.parsed?
    let trees ← parsedItems? rest
    return tree :: trees

/-- The members of an object, with the texts of their keys. -/
def parsedMembers? : List (Token × Doc) → Option (List (String × Parsed))
  | [] => some []
  | (key, x) :: rest => do
    let name ← Walk.nameOf? key
    let tree ← x.parsed?
    let trees ← parsedMembers? rest
    return (name, tree) :: trees

end

end Doc

/-- A string of a document that is UTF-8 is UTF-8 between its quotes. -/
theorem Token.Next.text? (h : Token.Next data pos t) (hs : t.kind.isString = true) {s : List Char}
    (hu : Utf8.encode s = data) : ∃ body, Utf8.text? t.body = some body := by
  obtain ⟨-, -, -, rest, hdata, -⟩ := h.split (TokenKind.of_isScalar
    (TokenKind.isScalar_of_isString hs)).1
  obtain ⟨after, hlex⟩ := h
  obtain ⟨-, -, -, -, hl⟩ := Grammar.lex_sound hlex
  obtain ⟨_, body, -, ht, -⟩ := hl.string_parts hs
  have hsplit : Utf8.encode s =
      data.take t.offset ++ '"'.toUInt8 :: (body ++ '"'.toUInt8 :: rest) := calc
    Utf8.encode s = data.take t.offset ++ data.drop t.offset :=
      hu.trans (List.take_append_drop ..).symm
    _ = _ := by rw [hdata, ht, List.cons_append, List.append_assoc]; rfl
  obtain ⟨_, _, u, -, -, -, hafter⟩ := Utf8.encode_cut (by decide) hsplit
  obtain ⟨inside, _, _, -, hinside, -, -⟩ := Utf8.encode_cut (by decide) hafter
  exact ⟨String.ofList inside, Utf8.text?_eq_some_iff.mpr
    (by rw [Utf8.bytes, String.toList_ofList, hinside, Token.body_eq hs ht])⟩

namespace Value

/-- What is plain text is a string of that text. -/
theorem of_plainText? {v : Value} {s : String} (h : v.plainText? = some s) :
    v.isStringLike = true ∧ v.textBytes = Utf8.bytes s := by
  cases v with
  | string s' =>
    cases h
    exact ⟨rfl, rfl⟩
  | escString body =>
    cases h
    exact ⟨rfl, textBytes_escString body⟩
  | byteString bytes => exact ⟨rfl, (Utf8.text?_eq_some_iff.mp h).symm⟩
  | _ => cases h

end Value

namespace Doc

/-- Keys compare as the texts that they stand for. -/
theorem compare_names {key key' : Token} {name name' : String}
    (h : Walk.nameOf? key = some name) (h' : Walk.nameOf? key' = some name') :
    Value.compareScalars D (.ofToken key) (.ofToken key') = Parsed.compareTexts name name' := by
  obtain ⟨hs, hbytes⟩ := Value.of_plainText? h
  obtain ⟨hs', hbytes'⟩ := Value.of_plainText? h'
  rw [Value.compareScalars_strings hs hs', hbytes, hbytes']
  rfl

/-! ## 3. Every text has its tree -/

section Trees

variable {s : List Char}

theorem MoreMembers.keys {stop : Nat} : ∀ {members : List (Token × Doc)} {pos : Nat},
    MoreMembers data stop pos members →
      ∀ m ∈ members, ∃ pos, Token.Next data pos m.1 ∧ m.1.kind.isString = true
  | [], _, _, _, hm => by cases hm
  | (_, _) :: _, _, h, m, hm => by
    rcases List.mem_cons.mp hm with rfl | hm
    · obtain ⟨_, -, -, hn⟩ := h.1
      exact ⟨_, hn, h.2.1.1⟩
    · exact MoreMembers.keys h.2.2.2 m hm

theorem AllMembers.keys {stop : Nat} : ∀ {members : List (Token × Doc)} {pos : Nat},
    AllMembers data stop pos members →
      ∀ m ∈ members, ∃ pos, Token.Next data pos m.1 ∧ m.1.kind.isString = true
  | [], _, _, _, hm => by cases hm
  | (_, _) :: _, _, h, m, hm => by
    rcases List.mem_cons.mp hm with rfl | hm
    · exact ⟨_, h.1, h.2.1.1⟩
    · exact MoreMembers.keys h.2.2.2 m hm

theorem exists_name {key : Token} (hu : Utf8.encode s = data) (h : Token.Next data pos key)
    (hs : key.kind.isString = true) : ∃ name, Walk.nameOf? key = some name := by
  obtain ⟨body, hbody⟩ := h.text? hs hu
  have hk := h.backslash_iff hs
  rw [Walk.nameOf?, Value.ofToken]
  split at hk <;> rw [hk, hbody] <;> exact ⟨_, rfl⟩

mutual

/-- **What lies in a text has a tree.** -/
theorem exists_parsed (hu : Utf8.encode s = data) : ∀ {x : Doc}, x.Lies data →
    ∃ a, x.parsed? = some a
  | .scalar t, _ => ⟨.scalar t, rfl⟩
  | .array _ items _, h => by
    obtain ⟨trees, htrees⟩ := exists_parsedItems hu h.2.2.lies
    exact ⟨.array trees, by rw [parsed?, htrees]; rfl⟩
  | .object _ members _, h => by
    obtain ⟨trees, htrees⟩ := exists_parsedMembers hu h.2.2.lies h.2.2.keys
    exact ⟨.object trees, by rw [parsed?, htrees]; rfl⟩

theorem exists_parsedItems (hu : Utf8.encode s = data) : ∀ {items : List Doc},
    (∀ x ∈ items, x.Lies data) → ∃ trees, parsedItems? items = some trees
  | [], _ => ⟨[], rfl⟩
  | x :: rest, h => by
    obtain ⟨tree, htree⟩ := exists_parsed hu (h x List.mem_cons_self)
    obtain ⟨trees, htrees⟩ := exists_parsedItems hu fun y hy => h y (List.mem_cons_of_mem _ hy)
    exact ⟨tree :: trees, by rw [parsedItems?, htree, htrees]; rfl⟩

theorem exists_parsedMembers (hu : Utf8.encode s = data) : ∀ {members : List (Token × Doc)},
    (∀ m ∈ members, m.2.Lies data) →
      (∀ m ∈ members, ∃ pos, Token.Next data pos m.1 ∧ m.1.kind.isString = true) →
        ∃ trees, parsedMembers? members = some trees
  | [], _, _ => ⟨[], rfl⟩
  | (key, x) :: rest, h, hkeys => by
    obtain ⟨pos, hn, hs⟩ := hkeys (key, x) List.mem_cons_self
    obtain ⟨name, hname⟩ := exists_name hu hn hs
    obtain ⟨tree, htree⟩ := exists_parsed hu (h (key, x) List.mem_cons_self)
    obtain ⟨trees, htrees⟩ := exists_parsedMembers hu
      (fun m hm => h m (List.mem_cons_of_mem _ hm)) fun m hm => hkeys m (List.mem_cons_of_mem _ hm)
    exact ⟨(name, tree) :: trees, by rw [parsedMembers?, hname, htree, htrees]; rfl⟩

end

end Trees

/-! ## 4. Documents and trees in one order -/

theorem parsedItems?_cons {x : Doc} {rest : List Doc} {trees : List Parsed}
    (h : parsedItems? (x :: rest) = some trees) :
    ∃ a as, trees = a :: as ∧ x.parsed? = some a ∧ parsedItems? rest = some as := by
  rw [parsedItems?] at h
  obtain ⟨a, ha, h⟩ := Option.bind_eq_some_iff.mp h
  obtain ⟨as, has, h⟩ := Option.bind_eq_some_iff.mp h
  cases h
  exact ⟨a, as, rfl, ha, has⟩

theorem parsedMembers?_cons {key : Token} {x : Doc} {rest : List (Token × Doc)}
    {trees : List (String × Parsed)} (h : parsedMembers? ((key, x) :: rest) = some trees) :
    ∃ name a as, trees = (name, a) :: as ∧ Walk.nameOf? key = some name ∧ x.parsed? = some a ∧
      parsedMembers? rest = some as := by
  rw [parsedMembers?] at h
  obtain ⟨name, hname, h⟩ := Option.bind_eq_some_iff.mp h
  obtain ⟨a, ha, h⟩ := Option.bind_eq_some_iff.mp h
  obtain ⟨as, has, h⟩ := Option.bind_eq_some_iff.mp h
  cases h
  exact ⟨name, a, as, rfl, hname, ha, has⟩

theorem parsed?_sort {x : Doc} {a : Parsed} (h : x.parsed? = some a) : x.sort = a.sort := by
  cases x with
  | scalar t =>
    cases h
    rfl
  | array _ items _ =>
    obtain ⟨_, -, rfl⟩ := Option.map_eq_some_iff.mp h
    rfl
  | object _ members _ =>
    obtain ⟨_, -, rfl⟩ := Option.map_eq_some_iff.mp h
    rfl

/-- Trees of different kinds lie as their documents do. -/
theorem order_sorts {x y : Doc} {a b : Parsed} (hx : x.parsed? = some a) (hy : y.parsed? = some b)
    (h : x.sort ≠ y.sort) : x.order D y = a.order D b := by
  have hdoc : x.order D y = Ord.compare x.sort y.sort := by
    cases x <;> cases y <;> first
      | rfl
      | exact absurd rfl h
  rw [parsed?_sort hx, parsed?_sort hy] at h hdoc
  rw [hdoc]
  cases a <;> cases b <;> first
    | rfl
    | exact absurd rfl h

mutual

/-- **Documents lie as their trees do.** -/
theorem order_parsed : ∀ {x y : Doc} {a b : Parsed}, x.parsed? = some a → y.parsed? = some b →
    x.order D y = a.order D b
  | .scalar s, y, a, b, hx, hy => by
    cases y with
    | scalar t =>
      cases hx
      cases hy
      exact (Value.compare_ofToken s t).symm
    | _ => exact order_sorts hx hy (by simp [sort])
  | .array _ xs _, y, a, b, hx, hy => by
    cases y with
    | array _ ys _ =>
      obtain ⟨as, has, rfl⟩ := Option.map_eq_some_iff.mp hx
      obtain ⟨bs, hbs, rfl⟩ := Option.map_eq_some_iff.mp hy
      exact order_parsedItems has hbs
    | _ => exact order_sorts hx hy (by simp [sort])
  | .object _ xs _, y, a, b, hx, hy => by
    cases y with
    | object _ ys _ =>
      obtain ⟨as, has, rfl⟩ := Option.map_eq_some_iff.mp hx
      obtain ⟨bs, hbs, rfl⟩ := Option.map_eq_some_iff.mp hy
      exact order_parsedMembers has hbs
    | _ => exact order_sorts hx hy (by simp [sort])

theorem order_parsedItems : ∀ {xs ys : List Doc} {as bs : List Parsed},
    parsedItems? xs = some as → parsedItems? ys = some bs →
      orderItems D xs ys = Parsed.orderItems D as bs
  | [], ys, as, bs, hx, hy => by
    cases hx
    cases ys with
    | nil =>
      cases hy
      rfl
    | cons y ys =>
      obtain ⟨b, bs, rfl, -⟩ := parsedItems?_cons hy
      rfl
  | x :: xs, ys, as, bs, hx, hy => by
    obtain ⟨a, as, rfl, ha, has⟩ := parsedItems?_cons hx
    cases ys with
    | nil =>
      cases hy
      rfl
    | cons y ys =>
      obtain ⟨b, bs, rfl, hb, hbs⟩ := parsedItems?_cons hy
      rw [orderItems, Parsed.orderItems, order_parsed ha hb, order_parsedItems has hbs]

theorem order_parsedMembers : ∀ {xs ys : List (Token × Doc)} {as bs : List (String × Parsed)},
    parsedMembers? xs = some as → parsedMembers? ys = some bs →
      orderMembers D xs ys = Parsed.orderMembers D as bs
  | [], ys, as, bs, hx, hy => by
    cases hx
    cases ys with
    | nil =>
      cases hy
      rfl
    | cons y ys =>
      obtain ⟨name, b, bs, rfl, -⟩ := parsedMembers?_cons hy
      rfl
  | (key, x) :: xs, ys, as, bs, hx, hy => by
    obtain ⟨name, a, as, rfl, hname, ha, has⟩ := parsedMembers?_cons hx
    cases ys with
    | nil =>
      cases hy
      rfl
    | cons y ys =>
      obtain ⟨name', b, bs, rfl, hname', hb, hbs⟩ := parsedMembers?_cons hy
      rw [orderMembers, Parsed.orderMembers, compare_names hname hname', order_parsed ha hb,
        order_parsedMembers has hbs]

end

end Doc

namespace Value

/-- **Containers compare as the trees that they spell.** Documents that are UTF-8 have their trees;
    and the tokens of two of them tell the order of these, so that the bytes are not compared. -/
theorem containers_compare_as_trees (D : Decimals) (l r : String) (x y : Doc)
    (hx : x.Text (Utf8.bytes l)) (hy : y.Text (Utf8.bytes r)) :
    ∃ a b, x.parsed? = some a ∧ y.parsed? = some b ∧
      compareTokens? D (Token.stream 0 (Utf8.bytes l)) (Token.stream 0 (Utf8.bytes r)) =
        some (a.order D b) ∧
      (array (Utf8.bytes l)).compare D (.array (Utf8.bytes r)) = a.order D b ∧
      (object (Utf8.bytes l)).compare D (.object (Utf8.bytes r)) = a.order D b := by
  obtain ⟨a, ha⟩ := Doc.exists_parsed rfl hx.whole.2.1
  obtain ⟨b, hb⟩ := Doc.exists_parsed rfl hy.whole.2.1
  have horder := Doc.order_parsed (D := D) ha hb
  have hcontainers : compareContainers D (Utf8.bytes l) (Utf8.bytes r) = a.order D b :=
    (hx.compareContainers hy).trans horder
  refine ⟨a, b, ha, hb, ?_, hcontainers, hcontainers⟩
  rw [hx.whole.compareTokens? hy.whole, horder]

end Value

/-- An object with the key `a`, which is escaped there, and the number one. -/
def escapedKeyDoc : Doc :=
  .object ⟨.objectStart, 0, ['\x7b'.toUInt8]⟩
    [(⟨.escString, 1, Utf8.bytes "\"\\u0061\""⟩, .scalar ⟨.integer, 10, ['1'.toUInt8]⟩)] 12

/-- An object with the key `a` and an empty array. -/
def plainKeyDoc : Doc :=
  .object ⟨.objectStart, 0, ['\x7b'.toUInt8]⟩
    [(⟨.string, 1, Utf8.bytes "\"a\""⟩, .array ⟨.arrayStart, 6, ['['.toUInt8]⟩ [] 9)] 10

theorem text_escapedKeyDoc : escapedKeyDoc.Text (Utf8.bytes "\x7b\"\\u0061\":1\x7d") := by
  have hbody : Grammar.Body true (Utf8.bytes "\\u0061") :=
    .unicode (.inl (by decide)) (.inl (by decide)) (.inl (by decide)) (.inl (by decide)) .nil
  have hone : Grammar.Scalar .integer ['1'.toUInt8] :=
    .number (.integer .none (.digits (by decide) (by simp [Grammar.Digits])))
  refine ⟨[], _, [], (List.append_nil _).symm, Grammar.gap_nil,
    ⟨rfl, rfl, Utf8.bytes "\"\\u0061\":1", rfl, ?_⟩, Grammar.gap_nil⟩
  exact ⟨[], Utf8.bytes "\"\\u0061\"", [':'.toUInt8], ['1'.toUInt8], [], rfl, Grammar.gap_nil,
    ⟨rfl, rfl, .string hbody, rfl⟩, Grammar.separator_sign _, ⟨rfl, rfl, hone⟩, Grammar.gap_nil⟩

theorem text_plainKeyDoc : plainKeyDoc.Text (Utf8.bytes "\x7b\"a\": [ ]\x7d") := by
  have hspace : Grammar.Gap [0x20] := by simp [Grammar.Gap]
  have hbody : Grammar.Body false (Utf8.bytes "a") :=
    .plain (by decide) (by decide) (by decide) .nil
  refine ⟨[], _, [], (List.append_nil _).symm, Grammar.gap_nil,
    ⟨rfl, rfl, Utf8.bytes "\"a\": [ ]", rfl, ?_⟩, Grammar.gap_nil⟩
  exact ⟨[], Utf8.bytes "\"a\"", [':'.toUInt8, 0x20], Utf8.bytes "[ ]", [], rfl, Grammar.gap_nil,
    ⟨rfl, rfl, .string hbody, rfl⟩, ⟨[], [0x20], rfl, Grammar.gap_nil, hspace⟩,
    ⟨rfl, rfl, [0x20], rfl, hspace⟩, Grammar.gap_nil⟩

namespace Value

/-- The keys are one text, and a number comes before an array. -/
theorem containers_compare_as_trees_escapedKey :
    (object (Utf8.bytes "\x7b\"\\u0061\":1\x7d")).compare .standard
      (.object (Utf8.bytes "\x7b\"a\": [ ]\x7d")) = .lt := by
  obtain ⟨a, b, ha, hb, -, -, h⟩ :=
    containers_compare_as_trees .standard _ _ _ _ text_escapedKeyDoc text_plainKeyDoc
  obtain ⟨_, hmembers, rfl⟩ := Option.map_eq_some_iff.mp ha
  obtain ⟨name, _, _, rfl, hname, hone, hnil⟩ := Doc.parsedMembers?_cons hmembers
  obtain ⟨_, hmembers', rfl⟩ := Option.map_eq_some_iff.mp hb
  obtain ⟨name', _, _, rfl, hname', hempty, hnil'⟩ := Doc.parsedMembers?_cons hmembers'
  cases hone
  cases hempty
  cases hnil
  cases hnil'
  have hbody : Utf8.text? (Token.body ⟨.escString, 1, Utf8.bytes "\"\\u0061\""⟩) =
      some "\\u0061" := Utf8.text?_eq_some_iff.mpr rfl
  have hbody' : Utf8.text? (Token.body ⟨.string, 1, Utf8.bytes "\"a\""⟩) = some "a" :=
    Utf8.text?_eq_some_iff.mpr rfl
  simp only [Walk.nameOf?, ofToken, hbody, hbody', plainText?, Option.some.injEq] at hname hname'
  rw [h, ← hname, ← hname']
  cbv

end Value

end Sift
