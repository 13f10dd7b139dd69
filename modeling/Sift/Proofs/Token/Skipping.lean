import Sift.Proofs.Token.Lexing

/-!
# Skipping agrees with reading

Skipping a container counts brackets and minds strings, and reads nothing. Where there are tokens
to be read it does with the bytes of each what the token calls for: an opening one leads a
container deeper, a closing one leads out, and any other changes nothing (`skip_lex`).
-/

namespace Sift.Cursor

open Token

variable {off depth n : Nat} {b : UInt8} {rest : Bytes}

/-! ## 1. Bytes -/

/-- A byte that is neither a quote nor a bracket. -/
def Plain (b : UInt8) : Prop :=
  b ≠ '"'.toUInt8 ∧ isOpening b = false ∧ isClosing b = false

instance : DecidablePred Plain := fun _ => inferInstanceAs (Decidable (_ ∧ _ ∧ _))

/-- The bytes that are. -/
theorem not_plain (h : ¬ Plain b) :
    b = '"'.toUInt8 ∨ b = '\x7b'.toUInt8 ∨ b = '['.toUInt8 ∨ b = '\x7d'.toUInt8 ∨
      b = ']'.toUInt8 := by
  refine Classical.byContradiction fun hb => ?_
  simp only [not_or] at hb
  refine h ⟨hb.1, ?_, ?_⟩
  · simp [isOpening, hb.2.1, hb.2.2.1]
  · simp [isClosing, hb.2.2.2.1, hb.2.2.2.2]

/-- A byte is plain if something holds of it that holds of none of the others. -/
theorem plain_of {P : UInt8 → Prop} (h : P b) (h₁ : ¬ P '"'.toUInt8) (h₂ : ¬ P '\x7b'.toUInt8)
    (h₃ : ¬ P '['.toUInt8) (h₄ : ¬ P '\x7d'.toUInt8) (h₅ : ¬ P ']'.toUInt8) : Plain b := by
  refine Classical.byContradiction fun hb => ?_
  rcases not_plain hb with rfl | rfl | rfl | rfl | rfl <;> contradiction

theorem plain_of_isGap (h : isGap b = true) : Plain b :=
  plain_of (P := fun b => isGap b = true) h (by decide) (by decide) (by decide) (by decide)
    (by decide)

theorem plain_of_next? {p q : NumberPlace} (h : p.next? b = some q) : Plain b := by
  refine plain_of (P := fun b => (p.next? b).isSome = true) (by simp [h]) ?_ ?_ ?_ ?_ ?_ <;>
    cases p <;> decide

theorem plain_of_first? {p : NumberPlace} (h : NumberPlace.first? b = some p) : Plain b :=
  plain_of (P := fun b => (NumberPlace.first? b).isSome = true) (by simp [h]) (by decide)
    (by decide) (by decide) (by decide) (by decide)

/-! ## 2. Skipping bytes -/

theorem skip_plain (h : Plain b) :
    skip off (.between depth) n (b :: rest) = skip off (.between depth) (n + 1) rest := by
  rw [skip.eq_def]
  simp only [if_neg h.1, h.2.1, h.2.2, Bool.false_eq_true, if_false]

/-- What comes of a closing bracket: the end, or one container less to leave. -/
def leave (off : Nat) : (depth n : Nat) → Bytes → Except LexError Nat
  | 0, n, _ => .ok n
  | depth + 1, n, bytes => skip off (.between depth) n bytes

theorem skip_opening (h : isOpening b = true) :
    skip off (.between depth) n (b :: rest) = skip off (.between (depth + 1)) (n + 1) rest := by
  have hq : b ≠ '"'.toUInt8 := by
    rintro rfl
    exact absurd h (by decide)
  rw [skip.eq_def]
  simp only [if_neg hq, h, if_true]

theorem skip_closing (h : isClosing b = true) :
    skip off (.between depth) n (b :: rest) = leave off depth (n + 1) rest := by
  have hq : b ≠ '"'.toUInt8 := by
    rintro rfl
    exact absurd h (by decide)
  have ho : isOpening b = false := by
    simp only [isClosing, Bool.or_eq_true, beq_iff_eq] at h
    rcases h with rfl | rfl <;> decide
  rw [skip.eq_def]
  simp only [if_neg hq, ho, h, Bool.false_eq_true, if_false, if_true]
  cases depth <;> rfl

/-! ## 3. Skipping lexemes -/

/-- Where skipping stands at a place in a string. -/
def placeOf (start depth : Nat) : StringPlace → SkipPlace
  | .plain | .digits _ => .inString start depth
  | .escape => .escaped start depth

theorem skip_inString {start : Nat} (hq : b ≠ '"'.toUInt8) (he : b ≠ '\\'.toUInt8) :
    skip off (.inString start depth) n (b :: rest) =
      skip off (.inString start depth) (n + 1) rest := by
  rw [skip.eq_def]
  simp only [if_neg hq, if_neg he]

theorem isHexDigit_ne (h : isHexDigit b = true) : b ≠ '"'.toUInt8 ∧ b ≠ '\\'.toUInt8 := by
  constructor <;> rintro rfl <;> exact absurd h (by decide)

/-- What a string still has to come is skipped up to and with its closing quote. -/
theorem skip_lexString {start f : Nat} {stop : Stop} {e : Bool} :
    ∀ {bytes : Bytes} {p : StringPlace} {escaped : Bool} {offset n : Nat},
      lexString start p escaped offset bytes = .ok (e, stop) →
      skip off (placeOf f depth p) n bytes =
        skip off (.between depth) (n + (stop.offset - offset)) stop.rest
  | [], p, _, _, _, h => by cases p <;> cases h
  | b :: rest, p, escaped, offset, n, h => by
    -- one byte is skipped, and then what is left of the string
    have on {p' : StringPlace} {escaped' : Bool}
        (h : lexString start p' escaped' (offset + 1) rest = .ok (e, stop)) :
        skip off (placeOf f depth p') (n + 1) rest =
          skip off (.between depth) (n + (stop.offset - offset)) stop.rest := by
      obtain ⟨k, _, hk, _⟩ := lexString_past h
      rw [skip_lexString h, show n + 1 + (stop.offset - (offset + 1)) = n + (stop.offset - offset)
        by omega]
    unfold lexString at h
    cases p with
    | plain =>
      simp only at h
      split at h
      · next hq =>
        cases h
        rw [placeOf, skip.eq_def]
        simp only [if_pos hq, Nat.add_sub_cancel_left]
      · next hq =>
        split at h
        · next he =>
          rw [← on h, placeOf, skip.eq_def]
          simp only [if_neg hq, if_pos he, placeOf]
        · next he =>
          split at h
          · cases h
          · rw [← on h]
            exact skip_inString hq he
    | escape =>
      simp only at h
      split at h
      · rw [← on h, placeOf, skip.eq_def, placeOf]
      · split at h
        · rw [← on h, placeOf, skip.eq_def, placeOf]
        · cases h
    | digits more =>
      simp only at h
      split at h
      · next hb =>
        obtain ⟨hq, he⟩ := isHexDigit_ne hb
        cases more with
        | zero =>
          rw [← on h]
          exact skip_inString hq he
        | succ more =>
          rw [← on h]
          exact skip_inString hq he
      · cases h

theorem skip_lexNumber {kind : TokenKind} {stop : Stop} :
    ∀ {bytes : Bytes} {p : NumberPlace} {offset n : Nat},
      lexNumber p offset bytes = .ok (kind, stop) →
      skip off (.between depth) n bytes =
        skip off (.between depth) (n + (stop.offset - offset)) stop.rest
  | [], p, offset, n, h => by
    unfold lexNumber at h
    split at h
    · cases h
      rw [Nat.sub_self, Nat.add_zero]
    · cases h
  | b :: rest, p, offset, n, h => by
    unfold lexNumber at h
    split at h
    · next hp =>
      obtain ⟨k, _, hk, _⟩ := lexNumber_past h
      rw [skip_plain (plain_of_next? hp), skip_lexNumber h,
        show n + 1 + (stop.offset - (offset + 1)) = n + (stop.offset - offset) by omega]
    · split at h
      · split at h
        · cases h
        · cases h
          rw [Nat.sub_self, Nat.add_zero]
      · cases h

theorem skip_lexWord {start : Nat} {stop : Stop} :
    ∀ {word bytes : Bytes} {offset n : Nat}, (∀ w ∈ word, Plain w) →
      lexWord start word offset bytes = .ok stop →
      skip off (.between depth) n bytes =
        skip off (.between depth) (n + (stop.offset - offset)) stop.rest
  | [], bytes, offset, n, _, h => by
    unfold lexWord at h
    cases h
    rw [Nat.sub_self, Nat.add_zero]
  | _ :: _, [], _, _, _, h => by
    unfold lexWord at h
    cases h
  | w :: word, b :: rest, offset, n, hw, h => by
    unfold lexWord at h
    split at h
    · next hb =>
      obtain ⟨k, _, hk, _⟩ := lexWord_past h
      rw [skip_plain (hb ▸ hw w List.mem_cons_self),
        skip_lexWord (fun v hv => hw v (List.mem_cons_of_mem w hv)) h,
        show n + 1 + (stop.offset - (offset + 1)) = n + (stop.offset - offset) by omega]
    · cases h

theorem plain_of_all {word : Bytes} (h : word.all (fun b => decide (Plain b)) = true) :
    ∀ w ∈ word, Plain w := fun w hw => of_decide_eq_true (List.all_eq_true.mp h w hw)

theorem word?_plain {word : Bytes} {kind : TokenKind} (h : word? b = some (word, kind)) :
    Plain b ∧ (∀ w ∈ word, Plain w) ∧ kind.opens = false ∧ kind.closes = false := by
  unfold word? at h
  repeat' split at h
  all_goals cases h
  all_goals
    next hb =>
      subst hb
      exact ⟨by decide, plain_of_all rfl, rfl, rfl⟩

theorem structural?_skip {kind : TokenKind} (h : structural? b = some kind) :
    isOpening b = kind.opens ∧ isClosing b = kind.closes ∧ b ≠ '"'.toUInt8 := by
  unfold structural? at h
  repeat' split at h
  all_goals cases h
  all_goals
    next hb =>
      subst hb
      decide

theorem lexNumber_kind {kind : TokenKind} {stop : Stop} :
    ∀ {bytes : Bytes} {p : NumberPlace} {offset : Nat},
      lexNumber p offset bytes = .ok (kind, stop) → kind.opens = false ∧ kind.closes = false
  | [], p, offset, h => by
    unfold lexNumber at h
    cases p <;> cases h <;> exact ⟨rfl, rfl⟩
  | b :: rest, p, offset, h => by
    unfold lexNumber at h
    split at h
    · exact lexNumber_kind h
    · split at h
      · next hk =>
        split at h
        · cases h
        · cases h
          cases p <;> cases hk <;> exact ⟨rfl, rfl⟩
      · cases h

/-! ## 4. Skipping tokens -/

/-- **What skipping comes to past a token.** -/
def skipPast (off depth n : Nat) (kind : TokenKind) (rest : Bytes) : Except LexError Nat :=
  if kind.opens then skip off (.between (depth + 1)) n rest
  else if kind.closes then leave off depth n rest
  else skip off (.between depth) n rest

theorem skipPast_of_neither {kind : TokenKind} (h : kind.opens = false ∧ kind.closes = false) :
    skipPast off depth n kind rest = skip off (.between depth) n rest := by
  rw [skipPast, h.1, h.2]
  rfl

theorem skip_lexeme {offset : Nat} {after : Bytes} {token : Token}
    (h : lexeme offset b after = .ok (token, rest)) :
    skip off (.between depth) n (b :: after) =
      skipPast off depth (n + (token.stop - offset)) token.kind rest := by
  -- the first byte is skipped, and then the others up to the stop
  have count {stop : Stop} {kind : TokenKind} (hs : stop.Past (offset + 1) after)
      (he : upTo offset (b :: after) kind stop = (token, rest)) :
      token.stop - offset = 1 + (stop.offset - (offset + 1)) ∧ rest = stop.rest ∧
        token.kind = kind := by
    obtain ⟨hstop, _⟩ := @upTo_stop _ _ kind _ (hs.cons b)
    obtain ⟨k, _, hk, _⟩ := hs
    rw [he] at hstop
    refine ⟨by simp only at hstop; omega, ?_, ?_⟩
    · exact (congrArg Prod.snd he).symm
    · exact (congrArg (·.1.kind) he).symm
  unfold lexeme at h
  split at h
  · next hk =>
    obtain ⟨hc, hr, hkind⟩ := count (Stop.past_self _ _) (Except.ok.inj h)
    obtain ⟨ho, hcl, hq⟩ := structural?_skip hk
    rw [hc, hr, hkind, skipPast, ← ho, ← hcl, Nat.sub_self]
    split
    · next ho => exact skip_opening ho
    · next ho =>
      split
      · next hcl => exact skip_closing hcl
      · next hcl => exact skip_plain ⟨hq, Bool.eq_false_iff.mpr ho, Bool.eq_false_iff.mpr hcl⟩
  · split at h
    · next hq =>
      split at h
      · next out stop hs =>
        obtain ⟨hc, hr, hkind⟩ := count (lexString_past hs) (Except.ok.inj h)
        rw [hc, hr, hkind, skipPast_of_neither (by cases out <;> exact ⟨rfl, rfl⟩), ← Nat.add_assoc,
          ← skip_lexString (f := off + n) hs, skip.eq_def]
        simp only [if_pos hq, placeOf]
      · cases h
    · split at h
      · next hp =>
        split at h
        · next hs =>
          obtain ⟨hc, hr, hkind⟩ := count (lexNumber_past hs) (Except.ok.inj h)
          rw [hc, hr, hkind, skipPast_of_neither (lexNumber_kind hs), ← Nat.add_assoc,
            ← skip_lexNumber hs]
          exact skip_plain (plain_of_first? hp)
        · cases h
      · split at h
        · next hw =>
          obtain ⟨hb, hword, hkinds⟩ := word?_plain hw
          split at h
          · next hs =>
            obtain ⟨hc, hr, hkind⟩ := count (lexWord_past hs) (Except.ok.inj h)
            rw [hc, hr, hkind, skipPast_of_neither hkinds, ← Nat.add_assoc, ← skip_lexWord hword hs]
            exact skip_plain hb
          · cases h
        · cases h

/-- **Skipping does with the bytes of a token what the token calls for.** -/
theorem skip_lex {token : Token} : ∀ {bytes : Bytes} {offset n : Nat},
    lex offset bytes = .ok (token, rest) →
    skip off (.between depth) n bytes =
      skipPast off depth (n + (token.stop - offset)) token.kind rest
  | [], offset, n, h => by
    cases h
    rw [skipPast_of_neither ⟨rfl, rfl⟩, show stop ⟨.finish, offset, []⟩ = offset from rfl,
      Nat.sub_self, Nat.add_zero]
  | b :: after, offset, n, h => by
    unfold lex at h
    split at h
    · next hb =>
      obtain ⟨hle, _⟩ := lex_ends h
      simp only at hle
      rw [skip_plain (plain_of_isGap hb), skip_lex h,
        show n + 1 + (token.stop - (offset + 1)) = n + (token.stop - offset) by omega]
    · exact skip_lexeme h

end Sift.Cursor
