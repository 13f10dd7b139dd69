import Sift.Proofs.Grammar.Tokens

/-!
# Stepping through a document

What a cursor reads, one token at a time.

* `Cursor.step_takes_lexeme`: a step takes the lexeme that comes after a gap, and stays where it
  is if there is none.
* `Cursor.Steps`: a run of steps none of which fails, with the tokens that it reads.
* `Cursor.steps_cover`: a run from the start of a document to its end covers all of it but for the
  gaps, and each of its tokens can be read again from anywhere in the gap before it.
-/

namespace Sift

open Grammar

variable {data : Bytes} {pos q : Nat} {t : Token}

/-! ## 1. One step -/

namespace Cursor

variable {c c' : Cursor}

/-- What a step that reads a token leaves. -/
theorem step_lex (h : c.step = (.ok t, c')) :
    Token.lex c.position c.rest = .ok (t, c'.rest) ∧ c'.data = c.data ∧ c'.position = t.stop ∧
      c'.steps = c.steps + 1 := by
  unfold step at h
  split at h
  · next hl =>
    cases h
    exact ⟨hl, rfl, rfl, rfl⟩
  · cases h

theorem step_iff : c.step.1 = .ok t ↔ ∃ rest, Token.lex c.position c.rest = .ok (t, rest) := by
  constructor
  · intro h
    obtain ⟨hl, -⟩ := step_lex (Prod.ext h rfl : c.step = (.ok t, c.step.2))
    exact ⟨_, hl⟩
  · rintro ⟨rest, hl⟩
    obtain ⟨c', h, -⟩ := step_of_next rfl ⟨rest, by rw [← c.rest_eq]; exact hl⟩
    rw [h]

/-- **A step takes the lexeme after the gap** and goes to where it stops. Where there is no lexeme
    the cursor stays. -/
theorem step_takes_lexeme (c : Cursor) :
    (∀ t, c.step.1 = .ok t ↔ ∃ gap rest, Gap gap ∧
      c.data.drop c.position = gap ++ (t.text ++ rest) ∧ t.offset = c.position + gap.length ∧
        Lexeme t.kind t.text rest) ∧
    (∀ t, c.step.1 = .ok t → c.step.2.position = t.stop) ∧
    ∀ e, c.step.1 = .error e → c.step.2.position = c.position := by
  refine ⟨fun t => ?_, fun t h => (step_lex (Prod.ext h rfl)).2.2.1, fun e h =>
    (step_error (Prod.ext h rfl)).2⟩
  simp only [step_iff, lex_iff, c.rest_eq]
  exact exists_comm

end Cursor

/-! ## 2. The token that comes next -/

namespace Token

/-- The token that comes next from a position, told by the bytes from there on. -/
theorem next_iff : Next data pos t ↔ ∃ gap rest, Gap gap ∧
    data.drop pos = gap ++ (t.text ++ rest) ∧ t.offset = pos + gap.length ∧
      Lexeme t.kind t.text rest := by
  simp only [Next, lex_iff]
  exact exists_comm

/-- **It comes next from anywhere in the gap before it.** -/
theorem Next.within (h : Next data pos t) (hle : pos ≤ q) (hq : q ≤ t.offset) : Next data q t := by
  obtain ⟨gap, rest, hgap, hs, ho, hl⟩ := next_iff.mp h
  have hk : q - pos ≤ gap.length := by omega
  refine next_iff.mpr ⟨gap.drop (q - pos), rest, fun b hb => hgap b (List.mem_of_mem_drop hb), ?_,
    by rw [List.length_drop]; omega, hl⟩
  rw [← List.drop_append_of_le_length hk, ← hs, List.drop_drop, Nat.add_sub_cancel' hle]

/-- Where it lies. -/
theorem Next.bounds (h : Next data pos t) (hpos : pos ≤ data.length) :
    pos ≤ t.offset ∧ t.stop ≤ data.length := by
  obtain ⟨gap, rest, -, hs, ho, -⟩ := next_iff.mp h
  have hlen := congrArg List.length hs
  simp only [List.length_drop, List.length_append] at hlen
  have hstop : t.stop = t.offset + t.text.length := rfl
  omega

/-- Its bytes are those of the document. -/
theorem Next.text_eq (h : Next data pos t) :
    (Span.between t.offset t.stop).text data = t.text := by
  obtain ⟨gap, rest, -, hs, ho, -⟩ := next_iff.mp h
  simp only [Span.text, Span.between, stop, Nat.add_sub_cancel_left]
  rw [ho, ← List.drop_drop, hs, List.drop_left, List.take_left]

/-- The end comes where the document ends. -/
theorem Next.stop_eq (h : Next data pos t) (hpos : pos ≤ data.length) (hk : t.kind = .finish) :
    t.stop = data.length := by
  obtain ⟨gap, rest, -, hs, ho, hl⟩ := next_iff.mp h
  obtain ⟨ht, rfl⟩ := hl.at_end hk
  have hlen := congrArg List.length hs
  simp only [ht, List.length_drop, List.length_append, List.length_nil] at hlen
  have hstop : t.stop = t.offset + t.text.length := rfl
  rw [hstop, ht, List.length_nil]
  omega

/-- A byte before it is one of a gap. -/
theorem Next.gap (h : Next data pos t) {i : Nat} {b : UInt8} (hb : data[i]? = some b)
    (hle : pos ≤ i) (hi : i < t.offset) : b = 0x20 ∨ b = 0x09 ∨ b = 0x0A ∨ b = 0x0D := by
  obtain ⟨gap, rest, hgap, hs, ho, -⟩ := next_iff.mp h
  have hlt : i - pos < gap.length := by omega
  have hat : gap[i - pos]? = some b := by
    have := congrArg (·[i - pos]?) hs
    rw [List.getElem?_drop, Nat.add_sub_cancel' hle, hb, List.getElem?_append_left hlt] at this
    exact this.symm
  exact hgap b (List.mem_of_getElem? hat)

end Token

/-! ## 3. Runs of steps -/

namespace Cursor

/-- **Steps one after the other**, none of which fails, from one cursor to another, and the tokens
    that they read. -/
inductive Steps : Cursor → List Token → Cursor → Prop
  | none {c : Cursor} : Steps c [] c
  | more {c c' c'' : Cursor} {t : Token} {tokens : List Token} (first : c.step = (.ok t, c'))
      (rest : Steps c' tokens c'') : Steps c (t :: tokens) c''

theorem next_of_step {c c' : Cursor} (h : c.step = (.ok t, c')) :
    Token.Next c.data c.position t :=
  ⟨_, by rw [← c.rest_eq]; exact (step_lex h).1⟩

namespace Steps

variable {c c' : Cursor} {tokens before after : List Token}

theorem data_eq (h : c.Steps tokens c') : c'.data = c.data := by
  induction h with
  | none => rfl
  | more first _ ih => exact ih.trans (step_lex first).2.1

/-- It counts its steps. -/
theorem steps_eq (h : c.Steps tokens c') : c'.steps = c.steps + tokens.length := by
  induction h with
  | none => rfl
  | more first _ ih =>
    rw [ih, (step_lex first).2.2.2, List.length_cons]
    omega

/-- Its tokens lie between the two cursors. -/
theorem bounds (h : c.Steps tokens c') (hc : c.Inside) :
    c'.Inside ∧ c.position ≤ c'.position ∧
      ∀ t ∈ tokens, c.position ≤ t.offset ∧ t.stop ≤ c'.position := by
  induction h with
  | none => exact ⟨hc, Nat.le_refl _, nofun⟩
  | @more c c₁ c' t tokens first _ ih =>
    obtain ⟨-, hin, hp, hle, -⟩ := step_bounds first hc
    obtain ⟨hin', hle', hall⟩ := ih hin
    have hlen : t.stop = t.offset + t.text.length := rfl
    refine ⟨hin', by omega, fun u hu => ?_⟩
    rcases List.mem_cons.mp hu with rfl | hu
    · exact ⟨hle, hp ▸ hle'⟩
    · obtain ⟨h₁, h₂⟩ := hall u hu
      exact ⟨by omega, h₂⟩

/-- Each of its tokens comes next from some place in the document. -/
theorem next (h : c.Steps tokens c') (hc : c.Inside) :
    ∀ t ∈ tokens, ∃ pos ≤ c.data.length, Token.Next c.data pos t := by
  induction h with
  | none => nofun
  | more first _ ih =>
    obtain ⟨hd, hin, -⟩ := step_bounds first hc
    intro u hu
    rcases List.mem_cons.mp hu with rfl | hu
    · exact ⟨_, hc, next_of_step first⟩
    · rw [← hd]
      exact ih hin u hu

/-- **No token begins before the one before it has stopped.** -/
theorem ordered (h : c.Steps tokens c') (hc : c.Inside) :
    tokens.Pairwise fun t t' => t.stop ≤ t'.offset := by
  induction h with
  | none => exact .nil
  | more first rest ih =>
    obtain ⟨-, hin, hp, -⟩ := step_bounds first hc
    refine .cons (fun u hu => ?_) (ih hin)
    rw [← hp]
    exact ((rest.bounds hin).2.2 u hu).1

/-- **A byte that is of no token is one of a gap.** -/
theorem gaps (h : c.Steps tokens c') {i : Nat} {b : UInt8} (hb : c.data[i]? = some b)
    (hle : c.position ≤ i) (hi : i < c'.position)
    (hout : ∀ t ∈ tokens, i < t.offset ∨ t.stop ≤ i) :
    b = 0x20 ∨ b = 0x09 ∨ b = 0x0A ∨ b = 0x0D := by
  induction h with
  | none => exact absurd hi (Nat.not_lt.mpr hle)
  | more first _ ih =>
    obtain ⟨-, hd, hp, -⟩ := step_lex first
    rcases hout _ List.mem_cons_self with hbefore | hpast
    · exact (next_of_step first).gap hb hle hbefore
    · exact ih (by rw [hd]; exact hb) (by rw [hp]; exact hpast) hi
        fun u hu => hout u (List.mem_cons_of_mem _ hu)

/-- Every token but the end uses up a byte. -/
theorem length_le (h : c.Steps tokens c') (hc : c.Inside) (hk : ∀ t ∈ tokens, t.kind ≠ .finish) :
    c.position + tokens.length ≤ c'.position := by
  induction h with
  | none => exact Nat.le_refl _
  | @more c c₁ c' t tokens first _ ih =>
    obtain ⟨-, hin, hp, hle, hlt⟩ := step_bounds first hc
    have := hlt (hk t List.mem_cons_self)
    have := ih hin fun u hu => hk u (List.mem_cons_of_mem _ hu)
    rw [List.length_cons]
    omega

/-- A run is two runs, one after the other. -/
theorem append_iff : c.Steps (before ++ after) c' ↔
    ∃ mid, c.Steps before mid ∧ mid.Steps after c' := by
  induction before generalizing c with
  | nil =>
    refine ⟨fun h => ⟨c, .none, h⟩, ?_⟩
    rintro ⟨_, ⟨⟩, h⟩
    exact h
  | cons t before ih =>
    constructor
    · rintro (_ | ⟨first, rest⟩)
      obtain ⟨mid, h₁, h₂⟩ := ih.mp rest
      exact ⟨mid, .more first h₁, h₂⟩
    · rintro ⟨mid, _ | ⟨first, rest⟩, h⟩
      exact .more first (ih.mpr ⟨mid, rest, h⟩)

/-- A run ends where its last token stops. -/
theorem position_eq (h : c.Steps (before ++ [t]) c') : c'.position = t.stop := by
  obtain ⟨mid, -, h⟩ := append_iff.mp h
  obtain _ | ⟨first, ⟨⟩⟩ := h
  exact (step_lex first).2.2.1

end Steps

/-! ## 4. Whole documents -/

/-- Where the last of some tokens stops, and the start of the document if there is none. -/
def lastStop (tokens : List Token) : Nat := (tokens.getLast?.map Token.stop).getD 0

theorem Steps.lastStop_eq {c : Cursor} {tokens : List Token} (h : (start data).Steps tokens c) :
    c.position = lastStop tokens := by
  rcases List.eq_nil_or_concat tokens with rfl | ⟨before, t, rfl⟩
  · cases h
    rfl
  · rw [List.concat_eq_append] at h ⊢
    rw [h.position_eq, lastStop, List.getLast?_concat]
    rfl

/-- **Tokens cover the bytes of a document**: they are in order, none has a byte of another, each
    has the bytes that lie there, and what they leave out is gaps. -/
structure Cover (data : Bytes) (tokens : List Token) : Prop where
  ordered : tokens.Pairwise fun t t' => t.stop ≤ t'.offset
  inside : ∀ t ∈ tokens, t.stop ≤ data.length
  text : ∀ t ∈ tokens, (Span.between t.offset t.stop).text data = t.text
  nonempty : ∀ t ∈ tokens, t.kind ≠ .finish → t.text ≠ []
  gaps : ∀ i b, data[i]? = some b → (∀ t ∈ tokens, i < t.offset ∨ t.stop ≤ i) →
    b = 0x20 ∨ b = 0x09 ∨ b = 0x0A ∨ b = 0x0D

theorem Steps.cover {c : Cursor} {tokens : List Token} (h : (start data).Steps tokens c)
    (hp : c.position = data.length) : Cover data tokens where
  ordered := h.ordered (Nat.zero_le _)
  inside t ht := by
    obtain ⟨pos, hpos, hn⟩ := h.next (Nat.zero_le _) t ht
    exact (hn.bounds hpos).2
  text t ht := by
    obtain ⟨pos, -, hn⟩ := h.next (Nat.zero_le _) t ht
    exact hn.text_eq
  nonempty t ht hk := by
    obtain ⟨pos, -, hn⟩ := h.next (Nat.zero_le _) t ht
    have hlt := (hn.split hk).2.1
    exact List.ne_nil_of_length_pos (Nat.lt_add_right_iff_pos.mp hlt)
  gaps i b hb hout := by
    obtain ⟨hi, -⟩ := List.getElem?_eq_some_iff.mp hb
    exact h.gaps hb (Nat.zero_le i) (hp ▸ hi) hout

/-- A token that a run reads is read again from anywhere in the gap before it, by any cursor over
    the document. -/
theorem Steps.again {c c' : Cursor} {before : List Token}
    (h : (start data).Steps (before ++ [t]) c') (hc : c.data = data) (hle : lastStop before ≤ q)
    (hq : q ≤ t.offset) : (c.seek q).step.1 = .ok t ∧ (c.seek q).step.2.position = c'.position := by
  obtain ⟨mid, hbefore, hlast⟩ := append_iff.mp h
  obtain _ | ⟨first, ⟨⟩⟩ := hlast
  obtain ⟨hin, -⟩ := hbefore.bounds (Nat.zero_le _)
  have hn := next_of_step first
  rw [hbefore.data_eq, hbefore.lastStop_eq] at hn
  have hstop := (hn.bounds (by rw [← hbefore.lastStop_eq]; exact hbefore.data_eq ▸ hin)).2
  have hqlen : q ≤ c.data.length := by
    rw [hc]
    exact Nat.le_trans hq (Nat.le_trans (Nat.le_add_right _ _) hstop)
  obtain ⟨d, hs, -, hp⟩ := step_of_next (c := c.seek q) hc
    (by rw [seek_position hqlen]; exact hn.within hle hq)
  rw [hs, h.position_eq]
  exact ⟨rfl, hp⟩

/-- **A run from the start of a document to its end covers the document** in no more steps than it
    has bytes and one for the end. Each token, the end too, is read again from anywhere between it
    and the token before it, whatever the cursor over the document did before. -/
theorem steps_cover {tokens : List Token} {last : Token} {c : Cursor}
    (h : (start data).Steps (tokens ++ [last]) c) (hk : ∀ t ∈ tokens, t.kind ≠ .finish)
    (hlast : last.kind = .finish) :
    Cover data (tokens ++ [last]) ∧ c.steps ≤ data.length + 1 ∧
      ∀ before t after, tokens ++ [last] = before ++ t :: after →
        ∃ c', (start data).Steps (before ++ [t]) c' ∧
          ∀ d : Cursor, d.data = data → ∀ q, lastStop before ≤ q → q ≤ t.offset →
            (d.seek q).step.1 = .ok t ∧ (d.seek q).step.2.position = c'.position := by
  obtain ⟨mid, hbefore, hend⟩ := Steps.append_iff.mp h
  obtain ⟨hin, -⟩ := hbefore.bounds (Nat.zero_le _)
  refine ⟨h.cover ?_, ?_, fun before t after hsplit => ?_⟩
  · obtain _ | ⟨first, ⟨⟩⟩ := hend
    rw [(step_lex first).2.2.1, (next_of_step first).stop_eq hin hlast, hbefore.data_eq]
    rfl
  · have hlen := hbefore.length_le (Nat.zero_le _) hk
    rw [Inside, hbefore.data_eq] at hin
    rw [h.steps_eq, List.length_append, List.length_singleton]
    simp only [start] at hlen hin ⊢
    omega
  · rw [hsplit, List.append_cons] at h
    obtain ⟨c', hto, -⟩ := Steps.append_iff.mp h
    exact ⟨c', hto, fun d hd q hle hq => hto.again hd hle hq⟩

/-- The text `[1 ]`. -/
def spacedOne : Bytes := ['[', '1', ' ', ']'].map Char.toUInt8

/-- Its tokens. -/
def spacedOneTokens : List Token :=
  [⟨.arrayStart, 0, ['['.toUInt8]⟩, ⟨.integer, 1, ['1'.toUInt8]⟩, ⟨.arrayEnd, 3, [']'.toUInt8]⟩]

/-- The bracket of `[1 ]` is read from the blank before it too. -/
theorem steps_cover_spacedOne : ∃ c,
    (start spacedOne).Steps (spacedOneTokens ++ [⟨.finish, 4, []⟩]) c ∧
      (∀ t ∈ spacedOneTokens, t.kind ≠ .finish) ∧
        Cover spacedOne (spacedOneTokens ++ [⟨.finish, 4, []⟩]) ∧ c.steps ≤ 5 ∧
          ∀ d : Cursor, d.data = spacedOne →
            (d.seek 2).step.1 = .ok ⟨.arrayEnd, 3, [']'.toUInt8]⟩ := by
  have hrun : (start spacedOne).Steps (spacedOneTokens ++ [⟨.finish, 4, []⟩]) _ :=
    .more rfl (.more rfl (.more rfl (.more rfl .none)))
  have hkinds : ∀ t ∈ spacedOneTokens, t.kind ≠ .finish := by decide
  obtain ⟨hcover, hcount, hagain⟩ := steps_cover hrun hkinds rfl
  obtain ⟨_, -, hreplay⟩ := hagain (spacedOneTokens.take 2) ⟨.arrayEnd, 3, [']'.toUInt8]⟩ _ rfl
  exact ⟨_, hrun, hkinds, hcover, hcount, fun d hd => (hreplay d hd 2 (by decide) (by decide)).1⟩

end Cursor

end Sift
