import Sift.Cursor

/-!
# Where tokens lie

`lex_split`: a token that has been read lies between a gap and the rest, and reading again from
where it starts gives it again. From this come the bounds of a cursor: `Cursor.step` and
`Cursor.skipContainer` stay inside the document, and go forward.
-/

namespace Sift

namespace Token

/-! ## 1. Tokens and the bytes around them -/

theorem structural?_ne_finish {b : UInt8} {kind : TokenKind} (h : structural? b = some kind) :
    kind ≠ .finish ∧ kind.isString = false := by
  unfold structural? at h
  repeat' split at h
  all_goals cases h
  all_goals exact ⟨TokenKind.noConfusion, rfl⟩

theorem word?_ne_finish {b : UInt8} {word : Bytes} {kind : TokenKind}
    (h : word? b = some (word, kind)) : kind ≠ .finish ∧ kind.isString = false := by
  unfold word? at h
  repeat' split at h
  all_goals cases h
  all_goals exact ⟨TokenKind.noConfusion, rfl⟩

theorem NumberPlace.kind?_ne_finish {p : NumberPlace} {kind : TokenKind}
    (h : p.kind? = some kind) : kind ≠ .finish ∧ kind.isString = false := by
  cases p <;> cases h <;> exact ⟨TokenKind.noConfusion, rfl⟩

theorem lexNumber_ne_finish {kind : TokenKind} {stop : Stop} :
    ∀ {bytes : Bytes} {p : NumberPlace} {offset : Nat},
      lexNumber p offset bytes = .ok (kind, stop) → kind ≠ .finish ∧ kind.isString = false
  | [], p, offset, h => by
    unfold lexNumber at h
    split at h
    · next hk =>
      cases h
      exact NumberPlace.kind?_ne_finish hk
    · cases h
  | b :: rest, p, offset, h => by
    unfold lexNumber at h
    split at h
    · exact lexNumber_ne_finish h
    · split at h
      · next hk =>
        split at h
        · cases h
        · cases h
          exact NumberPlace.kind?_ne_finish hk
      · cases h

/-- A string has its closing quote. -/
theorem lexString_lt {start : Nat} {stop : Stop} {out : Bool} {p : StringPlace} {escaped : Bool}
    {offset : Nat} {bytes : Bytes} (h : lexString start p escaped offset bytes = .ok (out, stop)) :
    offset < stop.offset := by
  cases bytes with
  | nil => cases p <;> cases h
  | cons b rest =>
    have past {p : StringPlace} {escaped : Bool}
        (h : lexString start p escaped (offset + 1) rest = .ok (out, stop)) :
        offset < stop.offset := by
      obtain ⟨n, _, hn, _⟩ := lexString_past h
      omega
    unfold lexString at h
    cases p with
    | plain =>
      simp only at h
      split at h
      · cases h
        exact Nat.lt_succ_self offset
      · split at h
        · exact past h
        · split at h
          · cases h
          · exact past h
    | escape =>
      simp only at h
      split at h
      · exact past h
      · split at h
        · exact past h
        · cases h
    | digits more =>
      simp only at h
      split at h
      · cases more <;> exact past h
      · cases h

/-- A token that reaches from its first byte to a stop past it. -/
theorem upTo_split {offset : Nat} {b : UInt8} {after : Bytes} {stop : Stop} (kind : TokenKind)
    (h : stop.Past (offset + 1) after) :
    (upTo offset (b :: after) kind stop).1.text ++ (upTo offset (b :: after) kind stop).2 =
        b :: after ∧
      (upTo offset (b :: after) kind stop).1.text.length = stop.offset - offset := by
  obtain ⟨n, hn, ho, hr⟩ := h
  have hs : stop.offset - offset = n + 1 := by omega
  constructor
  · simp only [upTo, hs, hr, List.take_succ_cons, List.cons_append, List.take_append_drop]
  · simp only [upTo, hs, List.length_take, List.length_cons]
    omega

/-- What is read where a token starts. -/
structure Starts (offset : Nat) (bytes : Bytes) (token : Token) (rest : Bytes) : Prop where
  offset_eq : token.offset = offset
  split : token.text ++ rest = bytes
  pos : 0 < token.text.length
  quotes : token.kind.isString = true → 2 ≤ token.text.length
  kind : token.kind ≠ .finish

theorem starts_upTo {offset : Nat} {b : UInt8} {after : Bytes} {stop : Stop} (kind : TokenKind)
    (h : stop.Past (offset + 1) after)
    (hk : kind ≠ .finish ∧ (kind.isString = true → offset + 1 < stop.offset)) :
    Starts offset (b :: after) (upTo offset (b :: after) kind stop).1
      (upTo offset (b :: after) kind stop).2 := by
  obtain ⟨hsplit, hlen⟩ := upTo_split (b := b) kind h
  obtain ⟨n, _, ho, _⟩ := h
  refine ⟨rfl, hsplit, by omega, fun hs => ?_, hk.1⟩
  have := hk.2 hs
  omega

theorem lexeme_starts {offset : Nat} {b : UInt8} {after : Bytes} {token : Token} {rest : Bytes}
    (h : lexeme offset b after = .ok (token, rest)) : Starts offset (b :: after) token rest := by
  have plain {kind : TokenKind} {stop : Stop} (hs : stop.Past (offset + 1) after)
      (hk : kind ≠ .finish ∧ kind.isString = false)
      (he : upTo offset (b :: after) kind stop = (token, rest)) :
      Starts offset (b :: after) token rest := by
    have := starts_upTo (b := b) kind hs ⟨hk.1, fun h => absurd h (by simp [hk.2])⟩
    rwa [he] at this
  unfold lexeme at h
  split at h
  · next hk => exact plain (Stop.past_self _ _) (structural?_ne_finish hk) (Except.ok.inj h)
  · split at h
    · split at h
      · next out stop hs =>
        have := starts_upTo (b := b) (if out then .escString else .string)
          (lexString_past hs) ⟨by cases out <;> exact TokenKind.noConfusion,
            fun _ => lexString_lt hs⟩
        rwa [Except.ok.inj h] at this
      · cases h
    · split at h
      · split at h
        · next hs =>
          exact plain (lexNumber_past hs) (lexNumber_ne_finish hs) (Except.ok.inj h)
        · cases h
      · split at h
        · next hw =>
          split at h
          · next hs => exact plain (lexWord_past hs) (word?_ne_finish hw) (Except.ok.inj h)
          · cases h
        · cases h

/-- **A token lies between a gap and the rest.** Reading from where it starts gives it again. -/
theorem lex_split {token : Token} {rest : Bytes} : ∀ {bytes : Bytes} {offset : Nat},
    lex offset bytes = .ok (token, rest) →
      ∃ gap : Bytes, gap.all isGap = true ∧ bytes = gap ++ (token.text ++ rest) ∧
        token.offset = offset + gap.length ∧
        lex token.offset (token.text ++ rest) = .ok (token, rest) ∧
        (token.kind = .finish ∧ token.text = [] ∧ rest = [] ∨
          Starts token.offset (token.text ++ rest) token rest)
  | [], offset, h => by
    cases h
    exact ⟨[], rfl, rfl, rfl, rfl, .inl ⟨rfl, rfl, rfl⟩⟩
  | b :: after, offset, h => by
    unfold lex at h
    split at h
    · next hb =>
      obtain ⟨gap, hg, hs, ho, hl, hk⟩ := lex_split h
      exact ⟨b :: gap, by simp [hb, hg], by rw [hs]; rfl, by rw [ho, List.length_cons]; omega,
        hl, hk⟩
    · next hb =>
      have hs := lexeme_starts h
      refine ⟨[], rfl, hs.split.symm, hs.offset_eq, ?_, .inr ?_⟩
      · rw [hs.split, hs.offset_eq, lex, if_neg hb, h]
      · rw [hs.split, hs.offset_eq]
        exact hs

end Token

end Sift
