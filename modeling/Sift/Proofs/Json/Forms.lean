import Sift.Standard
import Sift.Proofs.Json.Laws
import Sift.Proofs.Value.Containers
import Sift.Proofs.Value.Strings

/-!
# Reading what is written

A value is written as a text, the text has a form, and the form is read as a value again. For values
that have no fractions in them and no name twice nothing is lost:

* `Json.ofBytes?_text`: the form of the text is `Json.form`.
* `Json.reads_form`: that form reads as the value.
* `Json.json?_of_reads`: whatever reads as a value is read as it, if there is room for its
  containers.

So the codec of compact texts is lawful (`Json.Codec.lawful_standard`). The first is an induction
over the value. What it says of a value is said of a reading that expects one, whatever is still
open around it, and of the tokens from its first on.
-/

namespace Sift

open Grammar

/-! ## 1. Forms -/

namespace Json

/-- What a string is written as between its quotes. -/
def bodyOf (s : String) : Bytes := Utf8.encode (Text.Escape.escaped s.toList)

mutual

/-- **The form of what a value is written as.** -/
def form : Json → Source
  | .null => .null
  | .bool b => .bool b
  | .number n => .number (Utf8.encode n.text)
  | .string s => .string (bodyOf s)
  | .array elements => .array (forms elements)
  | .object members => .object (memberForms members)

/-- The forms of the elements of an array. -/
def forms : List Json → List Source
  | [] => []
  | v :: rest => v.form :: forms rest

/-- The forms of the members of an object. -/
def memberForms : List (String × Json) → List (Bytes × Source)
  | [] => []
  | (name, v) :: rest => (bodyOf name, v.form) :: memberForms rest

end

end Json

/-! ## 2. Reading strings and numbers -/

/-- Several things are read if each of them is. -/
theorem mapM_map_eq_some {α β γ : Type} {f : α → β} {g : β → Option γ} {h : α → γ} :
    ∀ {l : List α}, (∀ a ∈ l, g (f a) = some (h a)) → (l.map f).mapM g = some (l.map h)
  | [], _ => rfl
  | a :: rest, hl => by
    have hrest := mapM_map_eq_some fun a ha => hl a (List.mem_cons_of_mem _ ha)
    rw [List.map_cons, List.mapM_cons, hl a List.mem_cons_self, hrest]
    rfl

/-- **A string is read as it was written.** -/
theorem Source.text?_bodyOf (s : String) : text? (Json.bodyOf s) = some s := by
  have hstrict : Text.Escape.strict? (Text.Escape.escaped s.toList) = some s.toList := by
    rw [Text.Escape.strict?, (Text.spells_escaped s.toList).decode,
      mapM_map_eq_some (f := some) (g := id) (h := id) fun _ _ => rfl, List.map_id]
  rw [text?, Json.bodyOf, Utf8.decode?_encode, Option.bind_eq_bind, Option.bind_some, hstrict]
  exact congrArg some String.ofList_toList

namespace JsonNumber

variable {digits whole : Bytes}

theorem Exact.integer? {n : JsonNumber} (h : n.Exact) : ∃ z, n.integer? = some z := by
  cases n with
  | natural n => exact ⟨_, rfl⟩
  | negative n => exact ⟨_, rfl⟩
  | real x => exact h.elim

/-- Digits that fit a word are all read. -/
theorem whole_eq (h : Digits digits) : ∀ n,
    Nat.ofDigitChars 10 (digits.map fun b => Char.ofNat b.toNat) n < UInt64.size →
      JsonNumber.whole n digits =
        (Nat.ofDigitChars 10 (digits.map fun b => Char.ofNat b.toNat) n, 0) := by
  induction digits with
  | nil =>
    intro n _
    rw [List.map_nil, Nat.ofDigitChars_nil, JsonNumber.whole]
  | cons b more ih =>
    intro n hfits
    rw [List.map_cons, Nat.ofDigitChars_cons, Nat.mul_comm] at hfits ⊢
    have hle : n * 10 + ((Char.ofNat b.toNat).toNat - '0'.toNat) < UInt64.size := by
      refine Nat.lt_of_le_of_lt ?_ hfits
      rw [Nat.ofDigitChars_eq_ofDigitChars_zero]
      exact Nat.le_add_right_of_le (Nat.le_mul_of_pos_left _ (Nat.pow_pos (by decide)))
    rw [JsonNumber.whole, Numeral.digit?_of_digit (h b List.mem_cons_self), Option.getD_some,
      if_pos hle]
    exact ih (fun b hb => h b (List.mem_cons_of_mem _ hb)) _ hfits

/-- An integer whose digits fit a word is read by its value. -/
theorem ofText?_of_sign {text : Bytes} {minus : Bool} (hsign : Numeral.sign text = (minus, whole))
    (h : Whole whole) (hfits : decimal whole < UInt64.size) :
    ofText? text = some (ofInteger minus (decimal whole)) := by
  obtain ⟨-, hdigits⟩ := Numeral.digits_of_whole h
  obtain ⟨hleading, hafter⟩ := Numeral.leading_append hdigits (.inl rfl)
  rw [List.append_nil] at hleading hafter
  simp only [ofText?, hsign, hleading, hafter]
  rw [whole_eq hdigits 0 hfits]
  rfl

/-- **An integer is read as it was written.** -/
theorem Exact.ofText? {n : JsonNumber} (h : n.Exact) :
    JsonNumber.ofText? (Utf8.encode n.text) = some n := by
  cases n with
  | natural n =>
    have htext : Utf8.encode (text (.natural n)) = digitBytes n.toNat := by
      rw [text, digitBytes, ← Nat.toList_repr]
      rfl
    rw [htext, ofText?_of_sign (Numeral.sign_whole (whole_digitBytes _)) (whole_digitBytes _),
      decimal_digitBytes]
    · exact congrArg some (congrArg JsonNumber.natural UInt64.ofNat_toNat)
    · rw [decimal_digitBytes]
      exact n.toNat_lt
  | negative n =>
    obtain ⟨k, hk⟩ := Int.eq_negSucc_of_lt_zero h
    have hle := n.le_toInt
    have htext : Utf8.encode (text (.negative n)) = '-'.toUInt8 :: digitBytes (k + 1) := by
      rw [text, hk, show toString (Int.negSucc k) = "-" ++ (k + 1).repr from rfl,
        String.toList_append, Nat.toList_repr]
      exact Utf8.encode_append ['-'] _
    have hsign : Numeral.sign ('-'.toUInt8 :: digitBytes (k + 1)) = (true, digitBytes (k + 1)) :=
      rfl
    have hfits : k + 1 ≤ Nat.pow 2 63 := by
      rw [hk, Int.negSucc_eq] at hle
      show k + 1 ≤ 2 ^ 63
      omega
    rw [htext, ofText?_of_sign hsign (whole_digitBytes _), decimal_digitBytes, ofInteger,
      Bool.not_true, if_neg Bool.false_ne_true, if_pos ⟨Nat.succ_ne_zero k, hfits⟩]
    · rw [show (-((k + 1 : Nat) : Int)) = n.toInt from hk.symm, Int64.ofInt_toInt]
    · rw [decimal_digitBytes]
      exact Nat.lt_of_le_of_lt hfits (by decide)
  | real x => exact h.elim

end JsonNumber

/-! ## 3. The form of a text -/

namespace Source

variable {r r' r'' : Reading} {bytes rest rest' : Bytes} {t : Token} {stack : List Frame}

/-- **A reading leads to another** over the bytes up to `rest`. -/
def Leads (r : Reading) (bytes : Bytes) (r' : Reading) (rest : Bytes) : Prop :=
  ∀ pos, ∃ pos', complete? r (Token.stream pos bytes) = complete? r' (Token.stream pos' rest)

theorem Leads.trans (h : Leads r bytes r' rest) (h' : Leads r' rest r'' rest') :
    Leads r bytes r'' rest' := fun pos => by
  obtain ⟨pos', heq⟩ := h pos
  obtain ⟨pos'', heq'⟩ := h' pos'
  exact ⟨pos'', heq.trans heq'⟩

theorem complete?_cons (hs : step? r t = some r') (ts : List Token) :
    complete? r (t :: ts) = complete? r' ts := by
  rw [complete?.eq_def]
  split
  · next he => cases he
  · cases hs
  · next he =>
    cases he
    rw [hs]

/-- One token leads to the next reading. -/
theorem leads_token {kind : TokenKind} {text : Bytes} (hk : kind ≠ .finish)
    (hl : ∀ pos, Token.lex pos bytes = .ok (⟨kind, pos, text⟩, rest))
    (hs : ∀ pos, step? r ⟨kind, pos, text⟩ = some r') : Leads r bytes r' rest := fun pos => by
  refine ⟨Token.stop ⟨kind, pos, text⟩, ?_⟩
  rw [Token.stream]
  split
  · next he =>
    rw [hl] at he
    cases he
  · next he =>
    rw [hl] at he
    cases he
    rw [dif_neg hk, complete?_cons (hs pos)]

/-- A sign is read. -/
theorem leads_sign {kind : TokenKind} {b : UInt8} (h : Sign kind b)
    (hs : ∀ pos, step? r ⟨kind, pos, [b]⟩ = some r') : Leads r (b :: rest) r' rest := by
  refine leads_token (by cases h <;> exact nofun) (fun pos => ?_) hs
  exact lex_iff.mpr ⟨[], gap_nil, rfl, rfl, .sign h⟩

/-- A scalar is read, if what comes after it may. -/
theorem leads_scalar {kind : TokenKind} {text : Bytes} (h : Scalar kind text) (hr : Ended rest)
    (hs : ∀ pos, step? r ⟨kind, pos, text⟩ = some r') : Leads r (text ++ rest) r' rest := by
  refine leads_token (TokenKind.of_isScalar h.isScalar).1 (fun pos => ?_) hs
  obtain ⟨b, more, rfl, hg, hl⟩ := h.lexeme hr pos
  rw [List.cons_append, Token.lex, if_neg (by rw [hg]; exact Bool.false_ne_true), hl]

/-- The reading expects a value. -/
def Expects (r : Reading) (stack : List Frame) : Prop := r = .value stack ∨ r = .element stack

theorem Expects.step? (h : Expects r stack) (hk : t.kind ≠ .arrayEnd) :
    Source.step? r t = begin? stack t := by
  rcases h with rfl | rfl
  · rfl
  · exact if_neg hk

end Source

namespace Json

open Source

variable {r : Reading} {stack : List Frame} {rest : Bytes}

theorem encode_quoted (s : String) : Utf8.encode (Text.Escape.quoted s.toList) =
    '"'.toUInt8 :: (bodyOf s ++ ['"'.toUInt8]) := by
  rw [Text.Escape.quoted, List.cons_append, Utf8.encode_cons, Utf8.encode_append]
  rfl

/-- A string is one token, with its body. -/
theorem scalar_quoted (s : String) : ∃ kind, kind.isString = true ∧
    Scalar kind (Utf8.encode (Text.Escape.quoted s.toList)) ∧ ∀ pos,
      Token.body ⟨kind, pos, Utf8.encode (Text.Escape.quoted s.toList)⟩ = bodyOf s := by
  obtain ⟨escaped, hbody⟩ := body_of_spells (Text.spells_escaped s.toList)
  have hstring : (stringKind escaped).isString = true := by cases escaped <;> rfl
  rw [encode_quoted]
  exact ⟨_, hstring, .string hbody, fun pos => Token.body_eq hstring rfl⟩

/-- What is a scalar is read as its form. -/
theorem leads_of_scalar {kind : TokenKind} {text : Bytes} {form : Source} (hr : Expects r stack)
    (h : Scalar kind text) (hrest : Ended rest)
    (hform : ∀ pos, ofToken? ⟨kind, pos, text⟩ = some form) :
    Leads r (text ++ rest) (.after form stack) rest := by
  refine leads_scalar h hrest fun pos => ?_
  have hscalar := h.isScalar
  rw [hr.step? (by rintro rfl; cases hscalar), begin?, hform]
  cases kind <;> first
    | rfl
    | cases hscalar

/-- What comes after a value, if more elements do. -/
theorem ended_elements (elements : List Json) : Ended (Utf8.encode
    ((elementTexts elements).flatMap (',' :: ·)) ++ ']'.toUInt8 :: rest) := by
  cases elements with
  | nil => exact .bracket
  | cons v elements =>
    rw [elementTexts, List.flatMap_cons, List.cons_append, Utf8.encode_cons]
    exact .comma

/-- What comes after a value, if more members do. -/
theorem ended_members (members : List (String × Json)) : Ended (Utf8.encode
    ((memberTexts members).flatMap (',' :: ·)) ++ '\x7d'.toUInt8 :: rest) := by
  cases members with
  | nil => exact .brace
  | cons m members =>
    rw [memberTexts, List.flatMap_cons, List.cons_append, Utf8.encode_cons]
    exact .comma

/-- A name and its colon are read. -/
theorem leads_name (name : String) (before : List (Bytes × Source)) (mayEnd : Bool) :
    Leads (.name before mayEnd stack)
      (Utf8.encode (Text.Escape.quoted name.toList) ++ ':'.toUInt8 :: rest)
      (.value (.object before (bodyOf name) :: stack)) rest := by
  obtain ⟨kind, hstring, hscalar, hbody⟩ := scalar_quoted name
  have hname : Leads (.name before mayEnd stack)
      (Utf8.encode (Text.Escape.quoted name.toList) ++ ':'.toUInt8 :: rest)
      (.colon before (bodyOf name) stack) (':'.toUInt8 :: rest) :=
    leads_scalar hscalar .colon fun pos => by rw [step?, if_pos hstring, hbody]
  exact hname.trans (leads_sign .keyDelim fun _ => rfl)

mutual

/-- **A value is read as its form**, wherever one is expected. -/
theorem leads_text : ∀ {v : Json} {r : Reading} {stack : List Frame} {rest : Bytes}, v.Exact →
    Expects r stack → Ended rest → Leads r (Utf8.encode v.text ++ rest) (.after v.form stack) rest
  | .null, _, _, _, _, hr, hrest => leads_of_scalar hr .null hrest fun _ => rfl
  | .bool true, _, _, _, _, hr, hrest => leads_of_scalar hr .true hrest fun _ => rfl
  | .bool false, _, _, _, _, hr, hrest => leads_of_scalar hr .false hrest fun _ => rfl
  | .number n, _, _, _, h, hr, hrest => by
    obtain ⟨z, hz⟩ := JsonNumber.Exact.integer? h
    exact leads_of_scalar hr (.number (number_integer_iff.mpr ⟨z, integer_text hz⟩)) hrest
      fun _ => rfl
  | .string s, _, _, _, _, hr, hrest => by
    obtain ⟨kind, hstring, hscalar, hbody⟩ := scalar_quoted s
    refine leads_of_scalar hr hscalar hrest fun pos => ?_
    rw [form, ← hbody pos, ofToken?]
    cases kind <;> first
      | rfl
      | cases hstring
  | .array elements, r, stack, rest, h, hr, _ => by
    have hopen (inside : Bytes) : Leads r ('['.toUInt8 :: inside)
        (.element (.array [] :: stack)) inside :=
      leads_sign .arrayStart fun _ => hr.step? nofun
    have htext : Utf8.encode (Json.text (.array elements)) ++ rest =
        '['.toUInt8 :: (Utf8.encode (listed (elementTexts elements)) ++ ']'.toUInt8 :: rest) := by
      rw [Json.text, List.cons_append, Utf8.encode_cons, Utf8.encode_append, List.append_assoc,
        List.append_assoc]
      rfl
    rw [htext]
    refine (hopen _).trans ?_
    cases elements with
    | nil => exact leads_sign .arrayEnd fun _ => rfl
    | cons v elements =>
      rw [elementTexts, listed_cons, Utf8.encode_append, List.append_assoc]
      exact (leads_text h.1 (.inr rfl) (ended_elements elements)).trans
        (@leads_elements _ _ [] _ _ h.2)
  | .object members, r, stack, rest, h, hr, _ => by
    have hopen (inside : Bytes) : Leads r ('\x7b'.toUInt8 :: inside) (.name [] true stack) inside :=
      leads_sign .objectStart fun _ => hr.step? nofun
    have htext : Utf8.encode (Json.text (.object members)) ++ rest =
        '\x7b'.toUInt8 ::
          (Utf8.encode (listed (memberTexts members)) ++ '\x7d'.toUInt8 :: rest) := by
      rw [Json.text, List.cons_append, Utf8.encode_cons, Utf8.encode_append, List.append_assoc,
        List.append_assoc]
      rfl
    rw [htext]
    refine (hopen _).trans ?_
    cases members with
    | nil => exact leads_sign .objectEnd fun _ => rfl
    | cons m members =>
      obtain ⟨name, v⟩ := m
      rw [memberTexts, listed_cons, Utf8.encode_append, Utf8.encode_append, Utf8.encode_cons,
        List.append_assoc, List.append_assoc]
      refine (leads_name name [] true).trans ?_
      exact (leads_text h.2.1 (.inl rfl) (ended_members members)).trans
        (@leads_members _ _ _ [] _ _ h.2.2)

/-- More elements are read, up to and with the bracket. -/
theorem leads_elements : ∀ {elements : List Json} {value : Source} {before : List Source}
    {stack : List Frame} {rest : Bytes}, AllExact elements →
    Leads (.after value (.array before :: stack))
      (Utf8.encode ((elementTexts elements).flatMap (',' :: ·)) ++ ']'.toUInt8 :: rest)
      (.after (.array (before.reverse ++ value :: forms elements)) stack) rest
  | [], value, before, _, _, _ => leads_sign .arrayEnd fun _ => by
    rw [forms, ← List.reverse_cons]
    rfl
  | v :: elements, value, before, stack, rest, h => by
    rw [elementTexts, List.flatMap_cons, List.cons_append, Utf8.encode_cons, Utf8.encode_append,
      List.append_assoc, List.append_assoc]
    have hcomma (more : Bytes) : Leads (.after value (.array before :: stack))
        (','.toUInt8 :: more) (.value (.array (value :: before) :: stack)) more :=
      leads_sign .listDelim fun _ => rfl
    refine (hcomma _).trans ((leads_text h.1 (.inl rfl) (ended_elements elements)).trans ?_)
    have hrest := @leads_elements elements v.form (value :: before) stack rest h.2
    rwa [List.reverse_cons, List.append_assoc] at hrest

/-- More members are read, up to and with the brace. -/
theorem leads_members : ∀ {members : List (String × Json)} {value : Source} {name : Bytes}
    {before : List (Bytes × Source)} {stack : List Frame} {rest : Bytes}, MembersExact members →
    Leads (.after value (.object before name :: stack))
      (Utf8.encode ((memberTexts members).flatMap (',' :: ·)) ++ '\x7d'.toUInt8 :: rest)
      (.after (.object (before.reverse ++ (name, value) :: memberForms members)) stack) rest
  | [], value, name, before, _, _, _ => leads_sign .objectEnd fun _ => by
    rw [memberForms, ← List.reverse_cons]
    rfl
  | (name', v) :: members, value, name, before, stack, rest, h => by
    rw [memberTexts, List.flatMap_cons, List.cons_append, Utf8.encode_cons, Utf8.encode_append,
      Utf8.encode_append, Utf8.encode_cons, List.append_assoc, List.append_assoc, List.append_assoc]
    have hcomma (more : Bytes) : Leads (.after value (.object before name :: stack))
        (','.toUInt8 :: more) (.name ((name, value) :: before) false stack) more :=
      leads_sign .listDelim fun _ => rfl
    refine (hcomma _).trans ((leads_name name' _ false).trans ?_)
    refine (leads_text h.1 (.inl rfl) (ended_members members)).trans ?_
    have hrest := @leads_members members v.form (bodyOf name') ((name, value) :: before) stack rest
      h.2
    rwa [List.reverse_cons, List.append_assoc] at hrest

end

/-- **The form of what is written.** -/
theorem ofBytes?_text {v : Json} (h : v.Exact) :
    Source.ofBytes? (Utf8.encode v.text) = some v.form := by
  obtain ⟨pos, heq⟩ := @leads_text v (.value []) [] [] h (.inl rfl) .nil 0
  rw [List.append_nil] at heq
  rw [Source.ofBytes?, ofTokens?, heq, Token.stream]
  rfl

/-! ## 4. The value of a form -/

/-- A member of a new name comes last. -/
theorem put_of_not_mem {name : String} (v : Json) : ∀ {members : List (String × Json)},
    name ∉ members.map (·.1) → put name v members = members ++ [(name, v)]
  | [], _ => rfl
  | (other, old) :: rest, h => by
    obtain ⟨hne, hrest⟩ := not_or.mp (mt List.mem_cons.mpr h)
    rw [put, if_neg (Ne.symm hne), put_of_not_mem v hrest]
    rfl

/-- **Members of different names stay as they are.** -/
theorem putAll_eq {members : List (String × Json)} (h : (members.map (·.1)).Nodup) :
    putAll members = members := by
  have fold : ∀ (rest done : List (String × Json)), ((done ++ rest).map (·.1)).Nodup →
      rest.foldl (fun done m => put m.1 m.2 done) done = done ++ rest := by
    intro rest
    induction rest with
    | nil => exact fun done _ => (List.append_nil done).symm
    | cons m rest ih =>
      intro done hn
      have hnew : m.1 ∉ done.map (·.1) := fun hm => by
        rw [List.map_append, List.map_cons] at hn
        exact (List.nodup_append.mp hn).2.2 _ hm _ List.mem_cons_self rfl
      show rest.foldl _ (put m.1 m.2 done) = done ++ m :: rest
      rw [put_of_not_mem m.2 hnew, ih, List.append_assoc, List.singleton_append]
      rwa [List.append_assoc, List.singleton_append]
  exact fold members [] h

mutual

/-- **The form of what is written reads as the value.** -/
theorem reads_form : ∀ {v : Json}, v.Exact → Codec.standard.Reads v.form v
  | .null, _ => trivial
  | .bool _, _ => rfl
  | .number _, h => JsonNumber.Exact.ofText? h
  | .string s, _ => text?_bodyOf s
  | .array _, h => readsAll_forms h
  | .object _, h => readsMembers_forms h.2

theorem readsAll_forms : ∀ {elements : List Json}, AllExact elements →
    Codec.standard.ReadsAll (forms elements) elements
  | [], _ => trivial
  | _ :: _, h => ⟨reads_form h.1, readsAll_forms h.2⟩

theorem readsMembers_forms : ∀ {members : List (String × Json)}, MembersExact members →
    Codec.standard.ReadsMembers (memberForms members) members
  | [], _ => trivial
  | (name, _) :: _, h => ⟨text?_bodyOf name, reads_form h.1, readsMembers_forms h.2⟩

end

mutual

/-- **What reads as a value is read as it**, if there is room for its containers. -/
theorem json?_of_reads : ∀ {v : Json} {form : Source} {room : Nat}, v.Exact →
    Codec.standard.Reads form v → v.depth ≤ room → form.json? room = some v
  | .null, form, _, _, hr, _ => by
    cases form with
    | null => rfl
    | _ => cases hr
  | .bool _, form, _, _, hr, _ => by
    cases form with
    | bool _ => exact congrArg (fun b => some (Json.bool b)) hr
    | _ => cases hr
  | .number _, form, _, _, hr, _ => by
    cases form with
    | number text => exact congrArg (Option.map Json.number) hr
    | _ => cases hr
  | .string _, form, _, _, hr, _ => by
    cases form with
    | string body => exact congrArg (Option.map Json.string) hr
    | _ => cases hr
  | .array elements, form, room, h, hr, hd => by
    cases form with
    | array forms =>
      rw [depth] at hd
      rw [Source.json?, if_neg (by omega), jsonElements?_of_reads h hr (by omega)]
      rfl
    | _ => cases hr
  | .object members, form, room, h, hr, hd => by
    cases form with
    | object forms =>
      rw [depth] at hd
      rw [Source.json?, if_neg (by omega), jsonMembers?_of_reads h.2 hr (by omega),
        Option.map_some, putAll_eq h.1]
    | _ => cases hr

theorem jsonElements?_of_reads : ∀ {elements : List Json} {forms : List Source} {room : Nat},
    AllExact elements → Codec.standard.ReadsAll forms elements → depthOfAll elements ≤ room →
      jsonElements? room forms = some elements
  | [], forms, _, _, hr, _ => by
    cases forms with
    | nil => rfl
    | cons _ _ => cases hr
  | v :: elements, forms, room, h, hr, hd => by
    cases forms with
    | nil => cases hr
    | cons form forms =>
      rw [depthOfAll, Nat.max_le] at hd
      rw [jsonElements?, json?_of_reads h.1 hr.1 hd.1, jsonElements?_of_reads h.2 hr.2 hd.2]
      rfl

theorem jsonMembers?_of_reads : ∀ {members : List (String × Json)}
    {forms : List (Bytes × Source)} {room : Nat}, MembersExact members →
      Codec.standard.ReadsMembers forms members → depthOfMembers members ≤ room →
        jsonMembers? room forms = some members
  | [], forms, _, _, hr, _ => by
    cases forms with
    | nil => rfl
    | cons _ _ => cases hr
  | (name, v) :: members, forms, room, h, hr, hd => by
    cases forms with
    | nil => cases hr
    | cons m forms =>
      have hname : text? m.1 = some name := hr.1
      rw [depthOfMembers, Nat.max_le] at hd
      rw [jsonMembers?, hname, json?_of_reads h.1 hr.2.1 hd.1,
        jsonMembers?_of_reads h.2 hr.2.2 hd.2]
      rfl

end

/-- **Compact text and its reader are lawful.** -/
theorem Codec.lawful_standard : Codec.standard.Lawful where
  spelled h := h.text
  formed h := ⟨_, ofBytes?_text h, reads_form h⟩
  valued := json?_of_reads
  roomy := Nat.le_refl _

end Json

end Sift
