import Sift.Proofs.Grammar.Lexemes

/-!
# The documents of JSON

`Doc.Spelled` says that bytes are the value of a document by the grammar of RFC 8259, and
`Doc.Text` that they are a whole document: a value between gaps. It is told by the grammar alone.

`Doc.Text.whole`: a document that is spelled so lies in its bytes as a walk finds it.
-/

namespace Sift

open Grammar

/-! ## 1. The grammar -/

namespace Grammar

/-- A sign between gaps. -/
def Separator (sign : UInt8) (text : Bytes) : Prop :=
  ∃ before after, text = before ++ sign :: after ∧ Gap before ∧ Gap after

/-- The gaps may be empty. -/
theorem separator_sign (sign : UInt8) : Separator sign [sign] :=
  ⟨[], [], rfl, gap_nil, gap_nil⟩

/-- A string that is a key. -/
def Key (pos : Nat) (key : Token) (text : Bytes) : Prop :=
  key.offset = pos ∧ key.text = text ∧ Scalar key.kind text ∧ key.kind.isString = true

end Grammar

namespace Doc

mutual

/-- **The bytes, which begin at an offset, spell the value.** -/
def Spelled (pos : Nat) : Doc → Bytes → Prop
  | .scalar t, text => t.offset = pos ∧ t.text = text ∧ Scalar t.kind text
  | .array o items stop, text =>
    o = ⟨.arrayStart, pos, ['['.toUInt8]⟩ ∧ stop = pos + text.length ∧
      ∃ inside, text = '['.toUInt8 :: (inside ++ [']'.toUInt8]) ∧
        SpelledItems Gap (pos + 1) items inside
  | .object o members stop, text =>
    o = ⟨.objectStart, pos, ['\x7b'.toUInt8]⟩ ∧ stop = pos + text.length ∧
      ∃ inside, text = '\x7b'.toUInt8 :: (inside ++ ['\x7d'.toUInt8]) ∧
        SpelledMembers Gap (pos + 1) members inside

/-- The elements of an array up to its bracket, after what `Lead` says. -/
def SpelledItems (Lead : Bytes → Prop) (pos : Nat) : List Doc → Bytes → Prop
  | [], text => Gap text
  | x :: rest, text => ∃ lead own more, text = lead ++ (own ++ more) ∧ Lead lead ∧
      x.Spelled (pos + lead.length) own ∧
        SpelledItems (Separator ','.toUInt8) (pos + lead.length + own.length) rest more

/-- The members of an object up to its brace, after what `Lead` says. -/
def SpelledMembers (Lead : Bytes → Prop) (pos : Nat) : List (Token × Doc) → Bytes → Prop
  | [], text => Gap text
  | (key, x) :: rest, text => ∃ lead name colon own more,
      text = lead ++ (name ++ (colon ++ (own ++ more))) ∧ Lead lead ∧
        Key (pos + lead.length) key name ∧ Separator ':'.toUInt8 colon ∧
          x.Spelled (pos + lead.length + name.length + colon.length) own ∧
            SpelledMembers (Separator ','.toUInt8)
              (pos + lead.length + name.length + colon.length + own.length) rest more

end

/-- **The bytes are a document**: a value, and gaps around it. -/
def Text (data : Bytes) (d : Doc) : Prop :=
  ∃ before own after, data = before ++ (own ++ after) ∧ Gap before ∧
    d.Spelled before.length own ∧ Gap after

end Doc

/-! ## 2. The next token -/

namespace Grammar

variable {data : Bytes} {pos : Nat} {t : Token}

/-- A gap is passed over. -/
theorem lex_gap : ∀ {gap : Bytes}, Gap gap → ∀ (pos : Nat) (rest : Bytes),
    Token.lex pos (gap ++ rest) = Token.lex (pos + gap.length) rest
  | [], _, _, _ => rfl
  | b :: more, h, pos, rest => by
    rw [List.cons_append, Token.lex, if_pos (isGap_iff.mpr (h b List.mem_cons_self)),
      lex_gap (fun b hb => h b (List.mem_cons_of_mem _ hb)), List.length_cons, Nat.add_assoc,
      Nat.add_comm 1]

theorem drop_append {l rest : Bytes} (h : data.drop pos = l ++ rest) :
    data.drop (pos + l.length) = rest := by
  rw [← List.drop_drop, h, List.drop_left]

/-- After a gap comes the same token. -/
theorem next_of_gap {gap rest : Bytes} (hg : Gap gap) (h : data.drop pos = gap ++ rest)
    (hn : Token.Next data (pos + gap.length) t) : Token.Next data pos t := by
  obtain ⟨after, hn⟩ := hn
  rw [drop_append h] at hn
  exact ⟨after, by rw [h, lex_gap hg, hn]⟩

/-- A sign is a token of its own. -/
theorem next_sign {b : UInt8} {kind : TokenKind} {rest : Bytes} (hb : isGap b = false)
    (hs : Token.structural? b = some kind) (h : data.drop pos = b :: rest) :
    Token.Next data pos ⟨kind, pos, [b]⟩ := by
  refine ⟨rest, ?_⟩
  rw [h, Token.lex, if_neg (by rw [hb]; exact Bool.false_ne_true), Token.lexeme, hs]
  dsimp only
  rw [show b :: rest = [b] ++ rest from rfl]
  exact congrArg Except.ok (upTo_text (t := [b]))

/-- A scalar is a token of its own. -/
theorem next_scalar {kind : TokenKind} {text rest : Bytes} (h : Scalar kind text)
    (hr : Ended rest) (hd : data.drop pos = text ++ rest) :
    Token.Next data pos ⟨kind, pos, text⟩ := by
  obtain ⟨b, more, rfl, hg, hl⟩ := h.lexeme hr pos
  refine ⟨rest, ?_⟩
  rw [hd, List.cons_append, Token.lex, if_neg (by rw [hg]; exact Bool.false_ne_true), hl]

/-- A sign between gaps, and the token after it. -/
theorem next_separator {b : UInt8} {kind : TokenKind} {text rest : Bytes} (hb : isGap b = false)
    (hs : Token.structural? b = some kind) (ht : Separator b text)
    (h : data.drop pos = text ++ rest) (hn : Token.Next data (pos + text.length) t) :
    ∃ sign, Token.Next data pos sign ∧ sign.kind = kind ∧ Token.Next data sign.stop t := by
  obtain ⟨before, after, rfl, hbefore, hafter⟩ := ht
  rw [List.append_assoc, List.cons_append] at h
  have hsign := drop_append h
  refine ⟨⟨kind, pos + before.length, [b]⟩, next_of_gap hbefore h (next_sign hb hs hsign), rfl, ?_⟩
  have hrest : data.drop (pos + before.length + 1) = after ++ rest := by
    rw [← List.drop_drop, hsign]
    rfl
  refine next_of_gap hafter hrest ?_
  rwa [List.length_append, List.length_cons, ← Nat.add_assoc, Nat.add_comm after.length,
    ← Nat.add_assoc] at hn

theorem Scalar.isScalar {kind : TokenKind} {text : Bytes} (h : Scalar kind text) :
    kind.isScalar = Bool.true := by
  cases h with
  | null | true | false => rfl
  | number number => cases number <;> rfl
  | @string escaped _ _ => cases escaped <;> rfl

theorem ended_gap : ∀ {gap : Bytes}, Gap gap → ∀ {rest : Bytes}, Ended rest → Ended (gap ++ rest)
  | [], _, _, h => h
  | b :: _, hg, _, _ => .gap (isGap_iff.mpr (hg b List.mem_cons_self))

theorem ended_separator {b : UInt8} {text rest : Bytes} (h : Separator b text)
    (hb : ∀ {rest : Bytes}, Ended (b :: rest)) : Ended (text ++ rest) := by
  obtain ⟨before, after, rfl, hbefore, -⟩ := h
  rw [List.append_assoc]
  exact ended_gap hbefore hb

end Grammar

/-! ## 3. Values -/

namespace Doc

variable {data : Bytes}

theorem ended_items {pos : Nat} {items : List Doc} {text rest : Bytes}
    (h : SpelledItems (Separator ','.toUInt8) pos items text) :
    Ended (text ++ ']'.toUInt8 :: rest) := by
  cases items with
  | nil => exact ended_gap h .bracket
  | cons x items =>
    obtain ⟨lead, own, more, rfl, hlead, -⟩ := h
    rw [List.append_assoc]
    exact ended_separator hlead .comma

theorem ended_members {pos : Nat} {members : List (Token × Doc)} {text rest : Bytes}
    (h : SpelledMembers (Separator ','.toUInt8) pos members text) :
    Ended (text ++ '\x7d'.toUInt8 :: rest) := by
  cases members with
  | nil => exact ended_gap h .brace
  | cons m members =>
    obtain ⟨lead, name, colon, own, more, rfl, hlead, -⟩ := h
    rw [List.append_assoc]
    exact ended_separator hlead .comma

/-- The bracket or brace that closes a container. -/
theorem closes_of {b : UInt8} {kind : TokenKind} {pos : Nat} {gap rest : Bytes}
    (hb : isGap b = false) (hs : Token.structural? b = some kind) (hg : Gap gap)
    (h : data.drop pos = gap ++ b :: rest) : Closes data kind pos (pos + gap.length + 1) :=
  ⟨_, next_of_gap hg h (next_sign hb hs (drop_append h)), rfl, rfl⟩

/-- A key is the next token, and introduces what comes after its colon. -/
theorem introduces_of {pos : Nat} {key first : Token} {name colon rest : Bytes}
    (hk : Key pos key name) (hc : Separator ':'.toUInt8 colon)
    (h : data.drop pos = name ++ (colon ++ rest))
    (hn : Token.Next data (pos + name.length + colon.length) first) :
    Token.Next data pos key ∧ Introduces data key first := by
  obtain ⟨rfl, rfl, hscalar, hstring⟩ := hk
  refine ⟨next_scalar hscalar (ended_separator hc .colon) h, hstring, ?_⟩
  exact next_separator rfl rfl hc (drop_append h) hn

/-- Where a container stops, after an element. -/
theorem length_item {pos : Nat} {lead own more : Bytes} :
    pos + (lead ++ (own ++ more)).length + 1 =
      pos + lead.length + own.length + more.length + 1 := by
  simp only [List.length_append]
  omega

/-- Where a container stops, after a member. -/
theorem length_member {pos : Nat} {lead name colon own more : Bytes} :
    pos + (lead ++ (name ++ (colon ++ (own ++ more)))).length + 1 =
      pos + lead.length + name.length + colon.length + own.length + more.length + 1 := by
  simp only [List.length_append]
  omega

mutual

/-- **A value that is spelled by bytes lies in them.** Where a scalar ends is told by what
    follows. -/
theorem Spelled.lies : ∀ {d : Doc} {pos : Nat} {text rest : Bytes}, d.Spelled pos text →
    data.drop pos = text ++ rest → (d.opening.kind.isScalar = true → Ended rest) →
    d.Lies data ∧ d.opening.offset = pos ∧ d.stop = pos + text.length
  | .scalar t, pos, text, rest, h, hd, hr => by
    obtain ⟨rfl, rfl, hs⟩ := h
    exact ⟨⟨hs.isScalar, next_scalar hs (hr hs.isScalar) hd⟩, rfl, rfl⟩
  | .array o items stop, pos, text, rest, h, hd, hr => by
    obtain ⟨rfl, rfl, inside, rfl, hi⟩ := h
    rw [List.cons_append, List.append_assoc] at hd
    have hinside : data.drop (pos + 1) = inside ++ ']'.toUInt8 :: rest := drop_append (l := [_]) hd
    have hall := SpelledItems.all hi hinside
    refine ⟨⟨rfl, next_sign rfl rfl hd, ?_⟩, rfl, rfl⟩
    rwa [show pos + 1 + inside.length + 1 =
      pos + ('['.toUInt8 :: (inside ++ [']'.toUInt8])).length by simp; omega] at hall
  | .object o members stop, pos, text, rest, h, hd, hr => by
    obtain ⟨rfl, rfl, inside, rfl, hi⟩ := h
    rw [List.cons_append, List.append_assoc] at hd
    have hinside : data.drop (pos + 1) = inside ++ '\x7d'.toUInt8 :: rest :=
      drop_append (l := [_]) hd
    have hall := SpelledMembers.all hi hinside
    refine ⟨⟨rfl, next_sign rfl rfl hd, ?_⟩, rfl, rfl⟩
    rwa [show pos + 1 + inside.length + 1 =
      pos + ('\x7b'.toUInt8 :: (inside ++ ['\x7d'.toUInt8])).length by simp; omega] at hall

theorem SpelledItems.all : ∀ {items : List Doc} {pos : Nat} {text rest : Bytes},
    SpelledItems Gap pos items text → data.drop pos = text ++ ']'.toUInt8 :: rest →
    AllItems data (pos + text.length + 1) pos items
  | [], pos, text, rest, h, hd => closes_of rfl rfl h hd
  | x :: items, pos, text, rest, h, hd => by
    obtain ⟨lead, own, more, rfl, hlead, hx, hmore⟩ := h
    rw [List.append_assoc, List.append_assoc] at hd
    obtain ⟨hlies, hoffset, hstop⟩ := Spelled.lies hx (drop_append hd) fun _ => ended_items hmore
    have hrest := SpelledItems.more hmore (drop_append (drop_append hd))
    refine ⟨next_of_gap hlead hd (hoffset ▸ hlies.again), hlies, ?_⟩
    rw [hstop, length_item]
    exact hrest

theorem SpelledItems.more : ∀ {items : List Doc} {pos : Nat} {text rest : Bytes},
    SpelledItems (Separator ','.toUInt8) pos items text →
    data.drop pos = text ++ ']'.toUInt8 :: rest →
    MoreItems data (pos + text.length + 1) pos items
  | [], pos, text, rest, h, hd => closes_of rfl rfl h hd
  | x :: items, pos, text, rest, h, hd => by
    obtain ⟨lead, own, more, rfl, hlead, hx, hmore⟩ := h
    rw [List.append_assoc, List.append_assoc] at hd
    obtain ⟨hlies, hoffset, hstop⟩ := Spelled.lies hx (drop_append hd) fun _ => ended_items hmore
    have hrest := SpelledItems.more hmore (drop_append (drop_append hd))
    refine ⟨next_separator rfl rfl hlead hd (hoffset ▸ hlies.again), hlies, ?_⟩
    rw [hstop, length_item]
    exact hrest

theorem SpelledMembers.all : ∀ {members : List (Token × Doc)} {pos : Nat} {text rest : Bytes},
    SpelledMembers Gap pos members text → data.drop pos = text ++ '\x7d'.toUInt8 :: rest →
    AllMembers data (pos + text.length + 1) pos members
  | [], pos, text, rest, h, hd => closes_of rfl rfl h hd
  | (key, x) :: members, pos, text, rest, h, hd => by
    obtain ⟨lead, name, colon, own, more, rfl, hlead, hkey, hcolon, hx, hmore⟩ := h
    simp only [List.append_assoc] at hd
    have hname := drop_append hd
    have hown := drop_append (drop_append hname)
    obtain ⟨hlies, hoffset, hstop⟩ := Spelled.lies hx hown fun _ => ended_members hmore
    obtain ⟨hnext, hintro⟩ := introduces_of hkey hcolon hname (hoffset ▸ hlies.again)
    have hrest := SpelledMembers.more hmore (drop_append hown)
    refine ⟨next_of_gap hlead hd hnext, hintro, hlies, ?_⟩
    rw [hstop, length_member]
    exact hrest

theorem SpelledMembers.more : ∀ {members : List (Token × Doc)} {pos : Nat} {text rest : Bytes},
    SpelledMembers (Separator ','.toUInt8) pos members text →
    data.drop pos = text ++ '\x7d'.toUInt8 :: rest →
    MoreMembers data (pos + text.length + 1) pos members
  | [], pos, text, rest, h, hd => closes_of rfl rfl h hd
  | (key, x) :: members, pos, text, rest, h, hd => by
    obtain ⟨lead, name, colon, own, more, rfl, hlead, hkey, hcolon, hx, hmore⟩ := h
    simp only [List.append_assoc] at hd
    have hname := drop_append hd
    have hown := drop_append (drop_append hname)
    obtain ⟨hlies, hoffset, hstop⟩ := Spelled.lies hx hown fun _ => ended_members hmore
    obtain ⟨hnext, hintro⟩ := introduces_of hkey hcolon hname (hoffset ▸ hlies.again)
    have hrest := SpelledMembers.more hmore (drop_append hown)
    refine ⟨next_separator rfl rfl hlead hd hnext, hintro, hlies, ?_⟩
    rw [hstop, length_member]
    exact hrest

end

/-- A value lies in the bytes that spell it, whatever follows them, if its first token is read
    there. -/
theorem Spelled.lies_of_next {d : Doc} {pos : Nat} {text rest : Bytes} (h : d.Spelled pos text)
    (hd : data.drop pos = text ++ rest) (hn : Token.Next data pos d.opening) :
    d.Lies data ∧ d.stop = pos + text.length := by
  cases d with
  | scalar t =>
    obtain ⟨rfl, rfl, hs⟩ := h
    exact ⟨⟨hs.isScalar, hn⟩, rfl⟩
  | array o items stop =>
    have ho : o.kind.isScalar = false := by rw [h.1]; rfl
    obtain ⟨hlies, -, hstop⟩ := h.lies hd fun hs => absurd (ho.symm.trans hs) Bool.false_ne_true
    exact ⟨hlies, hstop⟩
  | object o members stop =>
    have ho : o.kind.isScalar = false := by rw [h.1]; rfl
    obtain ⟨hlies, -, hstop⟩ := h.lies hd fun hs => absurd (ho.symm.trans hs) Bool.false_ne_true
    exact ⟨hlies, hstop⟩

/-- **A document lies in the bytes that spell it.** -/
theorem Text.whole {d : Doc} (h : d.Text data) : d.Whole data := by
  obtain ⟨before, own, after, hdata, hbefore, hown, hafter⟩ := h
  have hd : data.drop 0 = before ++ (own ++ after) := hdata
  have hd' : data.drop before.length = own ++ after := Nat.zero_add before.length ▸ drop_append hd
  have hend : Ended after := List.append_nil after ▸ ended_gap hafter .nil
  obtain ⟨hlies, hoffset, hstop⟩ := hown.lies hd' fun _ => hend
  refine ⟨next_of_gap hbefore hd ?_, hlies, ⟨.finish, d.stop + after.length, []⟩, ⟨[], ?_⟩, rfl⟩
  · rw [Nat.zero_add, ← hoffset]
    exact hlies.again
  · rw [hstop, drop_append hd']
    have := lex_gap hafter (before.length + own.length) []
    rwa [List.append_nil] at this

end Doc

end Sift
