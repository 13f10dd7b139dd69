import Sift.Proofs.Document.Tree
import Sift.Proofs.Token.Skipping
import Sift.Proofs.Cursor

/-!
# Where documents lie

`Doc.Lies data d` says that the value `d` lies in the bytes of a document as its tokens say: each
token is the next one after the token before it, and the tokens are those of a value. From this
come the facts about values that a walk over the document needs:

* what a step and a skip come to (`step_of_next`, `skip_container`, `skip_items`),
* what a span makes of a value (`span_value`).
-/

namespace Sift

variable {data : Bytes} {pos : Nat} {t : Token}

/-! ## 1. The next token -/

/-- A scalar is no bracket. -/
theorem TokenKind.of_isScalar {kind : TokenKind} (h : kind.isScalar = Bool.true) :
    kind ≠ .finish ∧ kind.opens = Bool.false ∧ kind.closes = Bool.false := by
  cases kind <;> first
    | exact ⟨TokenKind.noConfusion, rfl, rfl⟩
    | cases h

theorem TokenKind.isScalar_of_isString {kind : TokenKind} (h : kind.isString = Bool.true) :
    kind.isScalar = Bool.true := by
  cases kind <;> first
    | rfl
    | cases h

/-- The token that comes next from a position. -/
def Token.Next (data : Bytes) (pos : Nat) (t : Token) : Prop :=
  ∃ rest, Token.lex pos (data.drop pos) = .ok (t, rest)

namespace Token

/-- The bytes from a token's start on. -/
theorem Next.split (h : Next data pos t) (hk : t.kind ≠ .finish) :
    pos ≤ t.offset ∧ t.offset < t.stop ∧ t.stop ≤ data.length ∧
      ∃ rest, data.drop t.offset = t.text ++ rest ∧
        Token.lex t.offset (data.drop t.offset) = .ok (t, rest) := by
  obtain ⟨rest, h⟩ := h
  obtain ⟨gap, -, hs, ho, hl, hf⟩ := lex_split h
  have starts := hf.resolve_left fun hf => hk hf.1
  have hdrop : data.drop t.offset = t.text ++ rest := by
    rw [ho, ← List.drop_drop, hs, List.drop_left]
  have hlen := congrArg List.length hdrop
  have hpos := starts.pos
  simp only [List.length_drop, List.length_append] at hlen
  have hstop : t.stop = t.offset + t.text.length := rfl
  exact ⟨by omega, by omega, by omega, rest, hdrop, by rw [hdrop]; exact hl⟩

/-- A token is the next one from where it starts. -/
theorem Next.again (h : Next data pos t) (hk : t.kind ≠ .finish) : Next data t.offset t := by
  obtain ⟨-, -, -, rest, -, hl⟩ := h.split hk
  exact ⟨rest, hl⟩

theorem structural?_first {b : UInt8} {kind : TokenKind} (h : structural? b = some kind) :
    (kind = .arrayStart ↔ b = '['.toUInt8) ∧ (kind = .objectStart ↔ b = '\x7b'.toUInt8) := by
  unfold structural? at h
  repeat' split at h
  all_goals cases h
  all_goals
    next hb =>
      subst hb
      decide

/-- The first byte of a token tells whether it opens a container, which is all of the token. -/
theorem lexeme_first {offset : Nat} {b : UInt8} {after rest : Bytes}
    (h : lexeme offset b after = .ok (t, rest)) :
    (t.kind = .arrayStart ↔ b = '['.toUInt8) ∧ (t.kind = .objectStart ↔ b = '\x7b'.toUInt8) ∧
      (t.kind.opens = true → t.stop = offset + 1) := by
  -- a token of more than one byte does not open a container, and its first byte is no bracket
  have other (hs : structural? b = none) (hk : t.kind.opens = false) :
      (t.kind = .arrayStart ↔ b = '['.toUInt8) ∧ (t.kind = .objectStart ↔ b = '\x7b'.toUInt8) ∧
        (t.kind.opens = true → t.stop = offset + 1) := by
    refine ⟨⟨fun h => ?_, ?_⟩, ⟨fun h => ?_, ?_⟩, fun h => ?_⟩
    · rw [h] at hk
      cases hk
    · rintro rfl
      exact absurd hs (by decide)
    · rw [h] at hk
      cases hk
    · rintro rfl
      exact absurd hs (by decide)
    · rw [h] at hk
      cases hk
  unfold lexeme at h
  split at h
  · next hs =>
    cases h
    obtain ⟨h₁, h₂⟩ := structural?_first hs
    exact ⟨h₁, h₂, fun _ => (upTo_stop ((Stop.past_self _ _).cons b)).1⟩
  · next hs =>
    refine other hs ?_
    split at h
    · split at h
      · next out _ _ =>
        cases h
        cases out <;> rfl
      · cases h
    · split at h
      · split at h
        · next hn =>
          cases h
          exact (Cursor.lexNumber_kind hn).1
        · cases h
      · split at h
        · next hw =>
          split at h
          · cases h
            exact (Cursor.word?_plain hw).2.2.1
          · cases h
        · cases h

/-- What stands where a token starts. -/
theorem Next.first (h : Next data pos t) (hk : t.kind ≠ .finish) :
    ∃ b, data[t.offset]? = some b ∧ (t.kind = .arrayStart ↔ b = '['.toUInt8) ∧
      (t.kind = .objectStart ↔ b = '\x7b'.toUInt8) ∧
      (t.kind.opens = true → t.stop = t.offset + 1) := by
  obtain ⟨-, hlt, -, rest, hs, hl⟩ := h.split hk
  have hstop : t.stop = t.offset + t.text.length := rfl
  cases ht : t.text with
  | nil =>
    rw [ht] at hstop
    simp only [List.length_nil] at hstop
    omega
  | cons b text =>
    rw [hs, ht, List.cons_append] at hl
    refine ⟨b, ?_, ?_⟩
    · rw [← List.head?_drop, hs, ht]
      rfl
    · unfold lex at hl
      split at hl
      · -- a token does not start with a gap
        have := (lex_ends hl).1
        have hlex := lex_split hl
        obtain ⟨gap, _, _, ho, _⟩ := hlex
        omega
      · exact lexeme_first hl

end Token

/-! ## 2. Steps and skips -/

variable {c : Cursor}

theorem step_of_next (hc : c.data = data) (h : Token.Next data c.position t) :
    ∃ c', c.step = (.ok t, c') ∧ c'.data = data ∧ c'.position = t.stop := by
  obtain ⟨rest, h⟩ := h
  rw [← hc, ← c.rest_eq] at h
  unfold Cursor.step
  split
  · next h' =>
    rw [h] at h'
    cases h'
    exact ⟨_, rfl, hc, rfl⟩
  · next h' =>
    rw [h] at h'
    cases h'

/-! ## 3. Values -/

/-- The token that closes a container comes next, and the container stops with it. -/
def Closes (data : Bytes) (kind : TokenKind) (pos stop : Nat) : Prop :=
  ∃ t, Token.Next data pos t ∧ t.kind = kind ∧ t.stop = stop

/-- A comma comes next, and then a token. -/
def Continues (data : Bytes) (pos : Nat) (t : Token) : Prop :=
  ∃ comma, Token.Next data pos comma ∧ comma.kind = .listDelim ∧ Token.Next data comma.stop t

/-- A key is followed by a colon and the first token of its value. -/
def Introduces (data : Bytes) (key first : Token) : Prop :=
  key.kind.isString = true ∧ ∃ colon, Token.Next data key.stop colon ∧ colon.kind = .keyDelim ∧
    Token.Next data colon.stop first

namespace Doc

mutual

/-- **The value lies in the document** as its tokens say. -/
def Lies (data : Bytes) : Doc → Prop
  | .scalar t => t.kind.isScalar = true ∧ Token.Next data t.offset t
  | .array o items stop =>
    o.kind = .arrayStart ∧ Token.Next data o.offset o ∧ AllItems data stop o.stop items
  | .object o members stop =>
    o.kind = .objectStart ∧ Token.Next data o.offset o ∧ AllMembers data stop o.stop members

/-- After the bracket, which stops at `pos`, come these elements, and then the array stops. -/
def AllItems (data : Bytes) (stop : Nat) : (pos : Nat) → List Doc → Prop
  | pos, [] => Closes data .arrayEnd pos stop
  | pos, x :: rest => Token.Next data pos x.opening ∧ x.Lies data ∧ MoreItems data stop x.stop rest

/-- After the brace, which stops at `pos`, come these members, and then the object stops. -/
def AllMembers (data : Bytes) (stop : Nat) : (pos : Nat) → List (Token × Doc) → Prop
  | pos, [] => Closes data .objectEnd pos stop
  | pos, (key, x) :: rest =>
    Token.Next data pos key ∧ Introduces data key x.opening ∧ x.Lies data ∧
      MoreMembers data stop x.stop rest

/-- After an element that stops at `pos` come these, and then the array stops. -/
def MoreItems (data : Bytes) (stop : Nat) : (pos : Nat) → List Doc → Prop
  | pos, [] => Closes data .arrayEnd pos stop
  | pos, x :: rest => Continues data pos x.opening ∧ x.Lies data ∧ MoreItems data stop x.stop rest

/-- After a member that stops at `pos` come these, and then the object stops. -/
def MoreMembers (data : Bytes) (stop : Nat) : (pos : Nat) → List (Token × Doc) → Prop
  | pos, [] => Closes data .objectEnd pos stop
  | pos, (key, x) :: rest =>
    Continues data pos key ∧ Introduces data key x.opening ∧ x.Lies data ∧
      MoreMembers data stop x.stop rest

end

/-- **A document that is one value** and nothing besides. -/
def Whole (data : Bytes) (d : Doc) : Prop :=
  Token.Next data 0 d.opening ∧ d.Lies data ∧ ∃ t, Token.Next data d.stop t ∧ t.kind = .finish

/-! ## 4. Openings -/

theorem Lies.kind {d : Doc} (h : d.Lies data) :
    d.opening.kind.isScalar = true ∨ d.opening.kind.opens = true := by
  cases d with
  | scalar _ => exact .inl h.1
  | array _ _ _ => exact .inr (by rw [opening, h.1]; rfl)
  | object _ _ _ => exact .inr (by rw [opening, h.1]; rfl)

theorem Lies.ne_finish {d : Doc} (h : d.Lies data) : d.opening.kind ≠ .finish := fun hk => by
  rcases h.kind with h | h <;> rw [hk] at h <;> cases h

theorem Lies.again {d : Doc} (h : d.Lies data) :
    Token.Next data d.opening.offset d.opening := by
  cases d with
  | scalar _ => exact h.2
  | array _ _ _ => exact h.2.1
  | object _ _ _ => exact h.2.1

end Doc

/-! ## 5. Skipping -/

/-- Skipping passes from one position to another, and stays in the container that it is in. -/
def Passes (data : Bytes) (pos stop : Nat) : Prop :=
  pos ≤ stop ∧ stop ≤ data.length ∧ ∀ off depth n,
    Cursor.skip off (.between depth) n (data.drop pos) =
      Cursor.skip off (.between depth) (n + (stop - pos)) (data.drop stop)

/-- Skipping leads from one position out of the container to another. -/
def Leaves (data : Bytes) (pos stop : Nat) : Prop :=
  pos < stop ∧ stop ≤ data.length ∧ ∀ off depth n,
    Cursor.skip off (.between depth) n (data.drop pos) =
      Cursor.leave off depth (n + (stop - pos)) (data.drop stop)

section Skip

variable {mid stop : Nat}

theorem Passes.trans (h : Passes data pos mid) (h' : Passes data mid stop) :
    Passes data pos stop := by
  obtain ⟨h₁, -, hs⟩ := h
  obtain ⟨h₂, h₃, hs'⟩ := h'
  refine ⟨Nat.le_trans h₁ h₂, h₃, fun off depth n => ?_⟩
  rw [hs, hs', show n + (mid - pos) + (stop - mid) = n + (stop - pos) by omega]

theorem Passes.leaves (h : Passes data pos mid) (h' : Leaves data mid stop) :
    Leaves data pos stop := by
  obtain ⟨h₁, -, hs⟩ := h
  obtain ⟨h₂, h₃, hs'⟩ := h'
  refine ⟨Nat.lt_of_le_of_lt h₁ h₂, h₃, fun off depth n => ?_⟩
  rw [hs, hs', show n + (mid - pos) + (stop - mid) = n + (stop - pos) by omega]

theorem skip_next (h : Token.Next data pos t) (off depth n : Nat) :
    Cursor.skip off (.between depth) n (data.drop pos) =
      Cursor.skipPast off depth (n + (t.stop - pos)) t.kind (data.drop t.stop) := by
  obtain ⟨rest, h⟩ := h
  obtain ⟨hle, hrest⟩ := Token.lex_ends h
  simp only at hle hrest
  rw [Cursor.skip_lex h, hrest, List.drop_drop, Nat.add_sub_cancel' hle]

/-- A token that is no bracket changes nothing. -/
theorem passes_of_neither (h : Token.Next data pos t) (hk : t.kind ≠ .finish)
    (hn : t.kind.opens = false ∧ t.kind.closes = false) : Passes data pos t.stop := by
  obtain ⟨h₁, h₂, h₃, -⟩ := h.split hk
  exact ⟨by omega, h₃, fun off depth n =>
    (skip_next h off depth n).trans (Cursor.skipPast_of_neither hn)⟩

/-- A closing bracket leads out. -/
theorem leaves_of_closes (h : Token.Next data pos t) (hc : t.kind.closes = true) :
    Leaves data pos t.stop := by
  have hk : t.kind ≠ .finish := fun hk => by
    rw [hk] at hc
    cases hc
  have ho : t.kind.opens = false := by
    cases hkind : t.kind <;> rw [hkind] at hc <;> first
      | rfl
      | cases hc
  obtain ⟨h₁, h₂, h₃, -⟩ := h.split hk
  refine ⟨by omega, h₃, fun off depth n => ?_⟩
  rw [skip_next h, Cursor.skipPast, ho, hc]
  rfl

/-- An opening bracket leads in, and then one has to come out again. -/
theorem passes_of_opens (h : Token.Next data pos t) (ho : t.kind.opens = true)
    (hl : Leaves data t.stop stop) : Passes data pos stop := by
  have hk : t.kind ≠ .finish := fun hk => by
    rw [hk] at ho
    cases ho
  obtain ⟨h₁, h₂, -, -⟩ := h.split hk
  obtain ⟨h₃, h₄, hs⟩ := hl
  refine ⟨by omega, h₄, fun off depth n => ?_⟩
  rw [skip_next h, Cursor.skipPast, if_pos ho, hs, Cursor.leave,
    show n + (t.stop - pos) + (stop - t.stop) = n + (stop - pos) by omega]

theorem Closes.leaves {kind : TokenKind} (h : Closes data kind pos stop)
    (hk : kind.closes = true) : Leaves data pos stop := by
  obtain ⟨t, hn, rfl, rfl⟩ := h
  exact leaves_of_closes hn hk

theorem Continues.passes (h : Continues data pos t) :
    ∃ mid, Passes data pos mid ∧ Token.Next data mid t := by
  obtain ⟨comma, hn, hk, ht⟩ := h
  exact ⟨_, passes_of_neither hn (by rw [hk]; exact TokenKind.noConfusion)
    (by rw [hk]; exact ⟨rfl, rfl⟩), ht⟩

/-- What comes later lies further on. -/
theorem Continues.le (h : Continues data pos t) : pos ≤ t.offset := by
  obtain ⟨comma, hn, hk, rest, hl⟩ := h
  obtain ⟨h₁, h₂, -, -⟩ := hn.split (by rw [hk]; exact TokenKind.noConfusion)
  obtain ⟨_, -, -, ho, -⟩ := Token.lex_split hl
  omega

theorem Introduces.le {key first : Token} (h : Introduces data key first) :
    key.offset ≤ first.offset := by
  obtain ⟨-, colon, hn, hk, rest, hl⟩ := h
  obtain ⟨h₁, h₂, -, -⟩ := hn.split (by rw [hk]; exact TokenKind.noConfusion)
  obtain ⟨_, -, -, ho, -⟩ := Token.lex_split hl
  have : key.stop = key.offset + key.text.length := rfl
  omega

theorem Introduces.passes {key first : Token} (h : Introduces data key first)
    (hn : Token.Next data pos key) :
    ∃ mid, Passes data pos mid ∧ Token.Next data mid first := by
  obtain ⟨hs, colon, hc, hk, hf⟩ := h
  have hkey := TokenKind.of_isScalar (TokenKind.isScalar_of_isString hs)
  exact ⟨_, (passes_of_neither hn hkey.1 hkey.2).trans
    (passes_of_neither hc (by rw [hk]; exact TokenKind.noConfusion)
      (by rw [hk]; exact ⟨rfl, rfl⟩)), hf⟩

end Skip

namespace Doc

mutual

/-- **Skipping passes a value.** -/
theorem Lies.passes : ∀ {d : Doc} {pos : Nat}, d.Lies data → Token.Next data pos d.opening →
    Passes data pos d.stop
  | .scalar _, _, h, hn => passes_of_neither hn h.ne_finish (TokenKind.of_isScalar h.1).2
  | .array o items stop, _, h, hn =>
    passes_of_opens hn (by rw [opening, h.1]; rfl) (AllItems.leaves h.2.2)
  | .object o members stop, _, h, hn =>
    passes_of_opens hn (by rw [opening, h.1]; rfl) (AllMembers.leaves h.2.2)

theorem AllItems.leaves : ∀ {items : List Doc} {stop pos : Nat},
    AllItems data stop pos items → Leaves data pos stop
  | [], _, _, h => Closes.leaves h rfl
  | _ :: _, _, _, h => (Lies.passes h.2.1 h.1).leaves (MoreItems.leaves h.2.2)

theorem AllMembers.leaves : ∀ {members : List (Token × Doc)} {stop pos : Nat},
    AllMembers data stop pos members → Leaves data pos stop
  | [], _, _, h => Closes.leaves h rfl
  | (_, _) :: _, _, _, h => by
    obtain ⟨mid, hp, hn⟩ := h.2.1.passes h.1
    exact (hp.trans (Lies.passes h.2.2.1 hn)).leaves (MoreMembers.leaves h.2.2.2)

theorem MoreItems.leaves : ∀ {items : List Doc} {stop pos : Nat},
    MoreItems data stop pos items → Leaves data pos stop
  | [], _, _, h => Closes.leaves h rfl
  | _ :: _, _, _, h => by
    obtain ⟨mid, hp, hn⟩ := h.1.passes
    exact (hp.trans (Lies.passes h.2.1 hn)).leaves (MoreItems.leaves h.2.2)

theorem MoreMembers.leaves : ∀ {members : List (Token × Doc)} {stop pos : Nat},
    MoreMembers data stop pos members → Leaves data pos stop
  | [], _, _, h => Closes.leaves h rfl
  | (_, _) :: _, _, _, h => by
    obtain ⟨mid, hp, hn⟩ := h.1.passes
    obtain ⟨mid', hp', hn'⟩ := h.2.1.passes hn
    exact ((hp.trans hp').trans (Lies.passes h.2.2.1 hn')).leaves (MoreMembers.leaves h.2.2.2)

end

/-- What is inside a container. -/
theorem Lies.inside {d : Doc} (h : d.Lies data) (ho : d.opening.kind.opens = true) :
    Leaves data d.opening.stop d.stop := by
  cases d with
  | scalar t =>
    rw [opening, (TokenKind.of_isScalar h.1).2.1] at ho
    cases ho
  | array _ _ _ => exact AllItems.leaves h.2.2
  | object _ _ _ => exact AllMembers.leaves h.2.2

/-- A scalar is one token. -/
theorem stop_of_isScalar {d : Doc} (h : d.Lies data) (hs : d.opening.kind.isScalar = true) :
    d.stop = d.opening.stop := by
  cases d with
  | scalar _ => rfl
  | array _ _ _ => rw [opening, h.1] at hs; cases hs
  | object _ _ _ => rw [opening, h.1] at hs; cases hs

/-- A value has at least one byte, and lies in the document. -/
theorem Lies.bounds {d : Doc} (h : d.Lies data) :
    d.opening.offset < d.opening.stop ∧ d.opening.stop ≤ d.stop ∧ d.stop ≤ data.length := by
  obtain ⟨-, h₂, h₃, -⟩ := h.again.split h.ne_finish
  rcases h.kind with hk | hk
  · cases d with
    | scalar t => exact ⟨h₂, Nat.le_refl _, h₃⟩
    | array _ _ _ => rw [opening, h.1] at hk; cases hk
    | object _ _ _ => rw [opening, h.1] at hk; cases hk
  · obtain ⟨h₄, h₅, -⟩ := h.inside hk
    exact ⟨h₂, Nat.le_of_lt h₄, h₅⟩

end Doc

/-! ## 6. Values inside a value -/

namespace Doc

theorem MoreItems.lies {stop : Nat} : ∀ {items : List Doc} {pos : Nat},
    MoreItems data stop pos items → ∀ x ∈ items, x.Lies data
  | [], _, _, _, hx => by cases hx
  | _ :: _, _, h, x, hx => by
    rcases List.mem_cons.mp hx with rfl | hx
    · exact h.2.1
    · exact MoreItems.lies h.2.2 x hx

theorem AllItems.lies {stop : Nat} : ∀ {items : List Doc} {pos : Nat},
    AllItems data stop pos items → ∀ x ∈ items, x.Lies data
  | [], _, _, _, hx => by cases hx
  | _ :: _, _, h, x, hx => by
    rcases List.mem_cons.mp hx with rfl | hx
    · exact h.2.1
    · exact MoreItems.lies h.2.2 x hx

theorem MoreMembers.lies {stop : Nat} : ∀ {members : List (Token × Doc)} {pos : Nat},
    MoreMembers data stop pos members → ∀ m ∈ members, m.2.Lies data
  | [], _, _, _, hm => by cases hm
  | (_, _) :: _, _, h, m, hm => by
    rcases List.mem_cons.mp hm with rfl | hm
    · exact h.2.2.1
    · exact MoreMembers.lies h.2.2.2 m hm

theorem AllMembers.lies {stop : Nat} : ∀ {members : List (Token × Doc)} {pos : Nat},
    AllMembers data stop pos members → ∀ m ∈ members, m.2.Lies data
  | [], _, _, _, hm => by cases hm
  | (_, _) :: _, _, h, m, hm => by
    rcases List.mem_cons.mp hm with rfl | hm
    · exact h.2.2.1
    · exact MoreMembers.lies h.2.2.2 m hm

theorem mem_of_findIn {name : String} {f : Doc → Option Doc} {x : Doc} :
    ∀ {members : List (Token × Doc)}, findIn name f members = some x →
      ∃ m ∈ members, f m.2 = some x
  | [], h => by cases h
  | (_, d) :: rest, h => by
    rw [findIn] at h
    split at h
    · rcases Option.or_eq_some_iff.mp h with h | ⟨-, h⟩
      · exact ⟨_, List.mem_cons_self, h⟩
      · obtain ⟨m, hm, hx⟩ := mem_of_findIn h
        exact ⟨m, List.mem_cons_of_mem _ hm, hx⟩
    · obtain ⟨m, hm, hx⟩ := mem_of_findIn h
      exact ⟨m, List.mem_cons_of_mem _ hm, hx⟩

/-- **What a path leads to lies in the document.** -/
theorem Lies.reach {p : Path} {d x : Doc} (h : d.Lies data) (hx : d.reach p = some x) :
    x.Lies data := by
  induction p generalizing d with
  | nil =>
    cases hx
    exact h
  | cons name p ih =>
    cases d with
    | object _ members _ =>
      obtain ⟨m, hm, hx⟩ := mem_of_findIn hx
      exact ih (h.2.2.lies m hm) hx
    | scalar _ => cases hx
    | array _ _ _ => cases hx

end Doc

/-- **Skipping a container** from inside comes to where it stops. -/
theorem skipContainer_of_leaves {stop : Nat} (hc : c.data = data)
    (h : Leaves data c.position stop) :
    ∃ c', c.skipContainer = (.ok stop, c') ∧ c'.data = data ∧ c'.position = stop := by
  obtain ⟨h₁, -, hs⟩ := h
  have hstop : c.position + (stop - c.position) = stop := by omega
  have hs := hs c.position 0 0
  rw [← hc, ← c.rest_eq, Cursor.leave, Nat.zero_add] at hs
  unfold Cursor.skipContainer
  split
  · next h' =>
    rw [hs] at h'
    cases h'
    exact ⟨_, Prod.ext (congrArg Except.ok hstop) rfl, hc, hstop⟩
  · next h' =>
    rw [hs] at h'
    cases h'

/-! ## 7. Spans -/

namespace Token.Next

variable {span : Span}

theorem opensArray_iff (h : Next data pos t) (hk : t.kind ≠ .finish) (hs : span.offset = t.offset) :
    span.opensArray data = true ↔ t.kind = .arrayStart := by
  obtain ⟨b, hb, harr, -, -⟩ := h.first hk
  rw [Span.opensArray, hs, hb, harr]
  simp

theorem opensObject_iff (h : Next data pos t) (hk : t.kind ≠ .finish)
    (hs : span.offset = t.offset) : span.opensObject data = true ↔ t.kind = .objectStart := by
  obtain ⟨b, hb, -, hobj, -⟩ := h.first hk
  rw [Span.opensObject, hs, hb, hobj]
  simp

/-- Bytes that start with a bracket are an array. -/
theorem value_of_array (h : Next data pos t) (hk : t.kind = .arrayStart)
    (hs : span.offset = t.offset) : span.value data = .array (span.text data) := by
  have hne : t.kind ≠ .finish := by
    rw [hk]
    exact TokenKind.noConfusion
  have hno : ¬ span.opensObject data = true := by
    rw [h.opensObject_iff hne hs, hk]
    exact TokenKind.noConfusion
  rw [Span.value, if_neg hno, if_pos ((h.opensArray_iff hne hs).mpr hk)]

/-- Bytes that start with a brace are an object. -/
theorem value_of_object (h : Next data pos t) (hk : t.kind = .objectStart)
    (hs : span.offset = t.offset) : span.value data = .object (span.text data) := by
  have hne : t.kind ≠ .finish := by
    rw [hk]
    exact TokenKind.noConfusion
  rw [Span.value, if_pos ((h.opensObject_iff hne hs).mpr hk)]

/-- Bytes that start with the token of another value are that value. -/
theorem value_of_scalar (h : Next data pos t) (hk : t.kind.isScalar = true)
    (hs : span.offset = t.offset) : span.value data = .ofToken t := by
  obtain ⟨hne, hopens, -⟩ := TokenKind.of_isScalar hk
  have hno {kind : TokenKind} (ho : kind.opens = true) : t.kind ≠ kind := by
    rintro rfl
    exact Bool.false_ne_true (hopens.symm.trans ho)
  obtain ⟨rest, hl⟩ := h.again hne
  rw [Span.value, if_neg (mt (h.opensObject_iff hne hs).mp (hno rfl)),
    if_neg (mt (h.opensArray_iff hne hs).mp (hno rfl)), hs, hl]

end Token.Next

namespace Doc

theorem opensArray_iff {d : Doc} (h : d.Lies data) :
    d.span.opensArray data = true ↔ d.opening.kind = .arrayStart :=
  h.again.opensArray_iff h.ne_finish rfl

theorem opensObject_iff {d : Doc} (h : d.Lies data) :
    d.span.opensObject data = true ↔ d.opening.kind = .objectStart :=
  h.again.opensObject_iff h.ne_finish rfl

/-- A container opens with one byte. -/
theorem Lies.opening_stop {d : Doc} (h : d.Lies data) (ho : d.opening.kind.opens = true) :
    d.opening.stop = d.opening.offset + 1 := by
  obtain ⟨_, -, -, -, hs⟩ := h.again.first h.ne_finish
  exact hs ho

/-- **A captured value is read again as it was.** -/
theorem span_value {d : Doc} (h : d.Lies data) : d.span.value data = d.value data := by
  have hn := h.again
  cases d with
  | scalar t => exact hn.value_of_scalar h.1 rfl
  | array o _ _ => exact hn.value_of_array h.1 rfl
  | object o _ _ => exact hn.value_of_object h.1 rfl

end Doc

end Sift
