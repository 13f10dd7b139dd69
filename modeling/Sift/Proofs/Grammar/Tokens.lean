import Sift.Proofs.Grammar.Numbers
import Sift.Proofs.Grammar.Documents

/-!
# The tokens of JSON

`Lexeme kind text rest` says by the grammar alone that `text` is the lexeme that `text ++ rest`
begins with. `lex_iff`: after the gap before it, this is what is read, and nothing is read where
there is none.

The two directions are shown for each kind of lexeme by itself, numbers in the module before.
Strings need `Ahead`, which says what is still to come from a place inside one.
-/

namespace Sift.Grammar

open Token

/-! ## 1. The grammar -/

/-- A sign that is a token of its own. -/
inductive Sign : TokenKind → UInt8 → Prop
  | objectStart : Sign .objectStart '\x7b'.toUInt8
  | objectEnd : Sign .objectEnd '\x7d'.toUInt8
  | arrayStart : Sign .arrayStart '['.toUInt8
  | arrayEnd : Sign .arrayEnd ']'.toUInt8
  | keyDelim : Sign .keyDelim ':'.toUInt8
  | listDelim : Sign .listDelim ','.toUInt8

/-- A word that is a value. -/
inductive Word : TokenKind → Bytes → Prop
  | null : Word .null (['n', 'u', 'l', 'l'].map Char.toUInt8)
  | true : Word .true (['t', 'r', 'u', 'e'].map Char.toUInt8)
  | false : Word .false (['f', 'a', 'l', 's', 'e'].map Char.toUInt8)

/-- **The lexeme that bytes begin with**, its kind, and what follows it. Where there are no bytes it
    is the end. A string has escapes if there is a backslash in it. -/
inductive Lexeme : TokenKind → (text rest : Bytes) → Prop
  | finish : Lexeme .finish [] []
  | sign {kind : TokenKind} {b : UInt8} {rest : Bytes} (sign : Sign kind b) : Lexeme kind [b] rest
  | word {kind : TokenKind} {text rest : Bytes} (word : Word kind text) : Lexeme kind text rest
  | number {kind : TokenKind} {text rest : Bytes} (number : LongestNumber kind text rest) :
      Lexeme kind text rest
  | string {escaped : Bool} {body rest : Bytes} (inside : Body escaped body) :
      Lexeme (if '\\'.toUInt8 ∈ body then .escString else .string)
        ('"'.toUInt8 :: (body ++ ['"'.toUInt8])) rest

/-! ## 2. Signs and words -/

theorem structural?_iff {b : UInt8} {kind : TokenKind} :
    structural? b = some kind ↔ Sign kind b := by
  constructor
  · intro h
    unfold structural? at h
    repeat' split at h
    all_goals cases h
    all_goals
      next hb =>
        rw [hb]
        constructor
  · intro h
    cases h <;> rfl

theorem word?_sound {b : UInt8} {more : Bytes} {kind : TokenKind}
    (h : word? b = some (more, kind)) : Word kind (b :: more) := by
  unfold word? at h
  repeat' split at h
  all_goals cases h
  all_goals
    next hb =>
      rw [hb]
      constructor

theorem word?_complete {text : Bytes} {kind : TokenKind} (h : Word kind text) :
    ∃ b more, text = b :: more ∧ word? b = some (more, kind) := by
  cases h <;> exact ⟨_, _, rfl, rfl⟩

/-- What is read of a word is the word. -/
theorem lexWord_sound {start : Nat} {stop : Stop} : ∀ {word bytes : Bytes} {offset : Nat},
    lexWord start word offset bytes = .ok stop → bytes = word ++ stop.rest
  | [], bytes, offset, h => by
    unfold lexWord at h
    cases h
    rfl
  | _ :: _, [], _, h => by
    unfold lexWord at h
    cases h
  | w :: word, b :: rest, offset, h => by
    unfold lexWord at h
    split at h
    · next hb => rw [hb, lexWord_sound h, List.cons_append]
    · cases h

/-! ## 3. Strings -/

/-- **What is still to come** of the inside of a string from a place in it, and whether an escape
    begins in that. -/
inductive Ahead : StringPlace → (escaped : Bool) → Bytes → Prop
  | plain {escaped : Bool} {text : Bytes} (inside : Body escaped text) :
      Ahead .plain escaped text
  | short {escaped : Bool} {b : UInt8} {text : Bytes}
      (letter : b ∈ ['"', '\\', '/', 'b', 'f', 'n', 'r', 't'].map Char.toUInt8)
      (more : Body escaped text) : Ahead .escape escaped (b :: text)
  | unicode {escaped : Bool} {text : Bytes} (digits : Ahead (.digits 3) escaped text) :
      Ahead .escape escaped ('u'.toUInt8 :: text)
  | digit {escaped : Bool} {b : UInt8} {text : Bytes} {n : Nat} (digit : HexDigit b)
      (more : Ahead (.digits n) escaped text) : Ahead (.digits (n + 1)) escaped (b :: text)
  | last {escaped : Bool} {b : UInt8} {text : Bytes} (digit : HexDigit b)
      (more : Body escaped text) : Ahead (.digits 0) escaped (b :: text)

theorem Ahead.escape {escaped : Bool} {text : Bytes} (h : Ahead .escape escaped text) :
    Body true ('\\'.toUInt8 :: text) := by
  cases h with
  | short letter more => exact .short letter more
  | unicode digits =>
    obtain _ | _ | _ | @⟨_, _, _, _, first, digits⟩ := digits
    obtain _ | _ | _ | @⟨_, _, _, _, second, digits⟩ := digits
    obtain _ | _ | _ | @⟨_, _, _, _, third, digits⟩ := digits
    obtain _ | _ | _ | _ | @⟨_, _, _, fourth, more⟩ := digits
    exact .unicode first second third fourth more

/-- **What is read of a string** is what is to come, up to and with the closing quote. -/
theorem lexString_sound {start : Nat} {stop : Stop} {out : Bool} :
    ∀ {bytes : Bytes} {p : StringPlace} {escaped : Bool} {offset : Nat},
      lexString start p escaped offset bytes = .ok (out, stop) →
        ∃ e text, bytes = text ++ '"'.toUInt8 :: stop.rest ∧ Ahead p e text ∧ out = (escaped || e)
  | [], p, _, _, h => by cases p <;> cases h
  | b :: rest, .plain, escaped, offset, h => by
    unfold lexString at h
    split at h
    · next hq =>
      cases h
      exact ⟨false, [], by rw [hq]; rfl, .plain .nil, (Bool.or_false _).symm⟩
    · next hq =>
      split at h
      · next hb =>
        obtain ⟨e, text, hs, ha, hout⟩ := lexString_sound h
        refine ⟨true, b :: text, by rw [hs]; rfl, .plain (hb ▸ ha.escape), ?_⟩
        rw [hout, Bool.true_or, Bool.or_true]
      · next hb =>
        split at h
        · cases h
        · next hc =>
          obtain ⟨e, text, hs, ⟨inside⟩, hout⟩ := lexString_sound h
          exact ⟨e, b :: text, by rw [hs]; rfl, .plain (.plain (UInt8.not_lt.mp hc) hq hb inside),
            hout⟩
  | b :: rest, .escape, escaped, offset, h => by
    unfold lexString at h
    split at h
    · next hb =>
      obtain ⟨e, text, hs, ⟨inside⟩, hout⟩ := lexString_sound h
      exact ⟨e, b :: text, by rw [hs]; rfl, .short (isShortEscape_iff.mp hb) inside, hout⟩
    · split at h
      · next hb =>
        obtain ⟨e, text, hs, ha, hout⟩ := lexString_sound h
        exact ⟨e, b :: text, by rw [hs]; rfl, hb ▸ .unicode ha, hout⟩
      · cases h
  | b :: rest, .digits n, escaped, offset, h => by
    unfold lexString at h
    split at h
    · next hb =>
      cases n with
      | zero =>
        obtain ⟨e, text, hs, ⟨inside⟩, hout⟩ := lexString_sound h
        exact ⟨e, b :: text, by rw [hs]; rfl, .last (isHexDigit_iff.mp hb) inside, hout⟩
      | succ n =>
        obtain ⟨e, text, hs, ha, hout⟩ := lexString_sound h
        exact ⟨e, b :: text, by rw [hs]; rfl, .digit (isHexDigit_iff.mp hb) ha, hout⟩
    · cases h

/-- There is an escape in a string if there is a backslash. -/
theorem Body.escaped_iff {escaped : Bool} {body : Bytes} (h : Body escaped body) :
    escaped = true ↔ '\\'.toUInt8 ∈ body := by
  induction h with
  | nil => simp
  | plain _ _ backslash _ ih => rw [ih, List.mem_cons, or_iff_right (Ne.symm backslash)]
  | short | unicode => simp

theorem Body.kind_eq {escaped : Bool} {body : Bytes} (h : Body escaped body) :
    stringKind escaped = if '\\'.toUInt8 ∈ body then .escString else .string := by
  simp only [stringKind, h.escaped_iff]

/-! ## 4. Lexemes -/

variable {kind : TokenKind} {text rest bytes : Bytes} {offset : Nat} {t : Token}

/-- **What is read is the lexeme** that is there. -/
theorem lexeme_sound {b : UInt8} {after : Bytes} (h : lexeme offset b after = .ok (t, rest)) :
    Lexeme t.kind t.text rest := by
  have hsplit := (lexeme_starts h).split
  -- the kind and the rest are those of the part that has been read, and the text is what is left
  have of_part {kind : TokenKind} {stop : Stop} {u : Bytes}
      (he : upTo offset (b :: after) kind stop = (t, rest)) (hu : after = u ++ stop.rest)
      (hl : Lexeme kind (b :: u) stop.rest) : Lexeme t.kind t.text rest := by
    have hrest : stop.rest = rest := congrArg Prod.snd he
    have hkind : kind = t.kind := congrArg (·.1.kind) he
    rw [hu, hrest, ← List.cons_append] at hsplit
    rw [List.append_cancel_right hsplit, ← hrest, ← hkind]
    exact hl
  unfold lexeme at h
  split at h
  · next hs => exact of_part (Except.ok.inj h) rfl (.sign (structural?_iff.mp hs))
  · split at h
    · next hq =>
      split at h
      · next hs =>
        obtain ⟨e, body, hsplit, ⟨inside⟩, rfl⟩ := lexString_sound hs
        refine of_part (u := body ++ ['"'.toUInt8]) (Except.ok.inj h) ?_ ?_
        · rw [hsplit, List.append_assoc, List.singleton_append]
        · rw [← stringKind, inside.kind_eq, hq]
          exact .string inside
      · cases h
    · split at h
      · next hp =>
        split at h
        · next hn =>
          obtain ⟨more, hsplit, hlongest⟩ := lexNumber_sound hp hn
          exact of_part (Except.ok.inj h) hsplit (.number hlongest)
        · cases h
      · split at h
        · next hw =>
          split at h
          · next hs =>
            exact of_part (Except.ok.inj h) (lexWord_sound hs) (.word (word?_sound hw))
          · cases h
        · cases h

/-- **The lexeme that is there is read.** -/
theorem Lexeme.read (h : Lexeme kind text rest) (hk : kind ≠ .finish) (offset : Nat) :
    ∃ b more, text = b :: more ∧ isGap b = false ∧
      lexeme offset b (more ++ rest) = .ok (⟨kind, offset, text⟩, rest) := by
  cases h with
  | finish => exact absurd rfl hk
  | @sign _ b _ sign =>
    refine ⟨b, [], rfl, by cases sign <;> rfl, ?_⟩
    simp only [lexeme, structural?_iff.mpr sign]
    exact congrArg Except.ok (upTo_text (t := [b]))
  | word word =>
    obtain ⟨b, more, rfl, hw⟩ := word?_complete word
    exact ⟨b, more, rfl, (word?_alone hw).1, lexeme_word hw⟩
  | number number =>
    obtain ⟨b, more, _, _, rfl, -⟩ := along?_of_number number.complete
    obtain ⟨p, hfirst, hread⟩ := lexNumber_complete number
    exact ⟨b, more, rfl, (first?_alone hfirst).1, lexeme_number hfirst (hread _)⟩
  | string inside =>
    refine ⟨_, _, rfl, rfl, ?_⟩
    rw [List.append_assoc, List.singleton_append, lexeme_string inside, inside.kind_eq]

/-- The end is where there are no bytes. -/
theorem Lexeme.at_end (h : Lexeme kind text rest) (hk : kind = .finish) :
    text = [] ∧ rest = [] := by
  cases h with
  | finish => exact ⟨rfl, rfl⟩
  | sign sign =>
    subst hk
    cases sign
  | word word =>
    subst hk
    cases word
  | number number =>
    subst hk
    cases number.complete
  | string => split at hk <;> cases hk

theorem Gap.cons {b : UInt8} {gap : Bytes} (hb : isGap b = true) (h : Gap gap) :
    Gap (b :: gap) := fun x hx => by
  rcases List.mem_cons.mp hx with rfl | hx
  · exact isGap_iff.mp hb
  · exact h x hx

theorem lex_sound : ∀ {bytes : Bytes} {offset : Nat}, lex offset bytes = .ok (t, rest) →
    ∃ gap, Gap gap ∧ bytes = gap ++ (t.text ++ rest) ∧ t.offset = offset + gap.length ∧
      Lexeme t.kind t.text rest
  | [], offset, h => by
    cases h
    exact ⟨[], nofun, rfl, rfl, .finish⟩
  | b :: after, offset, h => by
    unfold lex at h
    split at h
    · next hb =>
      obtain ⟨gap, hgap, hs, ho, hl⟩ := lex_sound h
      exact ⟨b :: gap, hgap.cons hb, by rw [hs]; rfl, by rw [ho, List.length_cons]; omega, hl⟩
    · have hs := lexeme_starts h
      exact ⟨[], nofun, hs.split.symm, hs.offset_eq, lexeme_sound h⟩

/-- **The token that comes first** is the lexeme after the gap. -/
theorem lex_iff : lex offset bytes = .ok (t, rest) ↔ ∃ gap, Gap gap ∧
    bytes = gap ++ (t.text ++ rest) ∧ t.offset = offset + gap.length ∧
      Lexeme t.kind t.text rest := by
  refine ⟨lex_sound, ?_⟩
  rintro ⟨gap, hgap, rfl, ho, hl⟩
  obtain ⟨kind, o, text⟩ := t
  dsimp only at ho hl ⊢
  rw [lex_gap hgap, ← ho]
  by_cases hk : kind = .finish
  · obtain ⟨rfl, rfl⟩ := hl.at_end hk
    rw [hk]
    rfl
  · obtain ⟨b, more, rfl, hg, hread⟩ := hl.read hk o
    rw [List.cons_append, lex, if_neg (by rw [hg]; exact Bool.false_ne_true), hread]

end Sift.Grammar
