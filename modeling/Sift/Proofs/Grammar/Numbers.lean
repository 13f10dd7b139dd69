import Sift.Proofs.Grammar.Lexemes

/-!
# Numbers, as far as they go

Nothing closes a number. What a text has of one is its longest beginning that begins a number, and
this is a number only if it is complete and no digit follows a zero (`LongestNumber`).

The reader is at a place of the number all the time. `Upto` says by the grammar what it has read
when it is there; from this come both that it goes on exactly as long as a number does
(`readable_iff`) and that what it ends with is the longest number there is (`lexNumber_sound`,
`lexNumber_complete`).
-/

namespace Sift.Grammar

open Token

/-! ## 1. The longest number -/

/-- What some number begins with. -/
def Readable (text : Bytes) : Prop := ∃ kind more, Number kind (text ++ more)

/-- Zero as an integer, with a sign or without. -/
inductive Zero : Bytes → Prop
  | mk {sign : Bytes} (minus : Minus sign) : Zero (sign ++ ['0'.toUInt8])

/-- **The number that bytes begin with**, and what follows it. Of all that they begin with it is the
    longest that begins a number, and if it is zero no digit follows. -/
structure LongestNumber (kind : TokenKind) (text rest : Bytes) : Prop where
  complete : Number kind text
  longest : ∀ u, u <+: text ++ rest → Readable u → u.length ≤ text.length
  zero : Zero text → ∀ b more, rest = b :: more → ¬ (0x30 ≤ b ∧ b ≤ 0x39)

/-! ## 2. Places in a number -/

/-- The digits of a number, with its sign and a fraction if there is one. -/
inductive Mantissa : Bytes → Prop
  | whole {sign whole : Bytes} (minus : Minus sign) (digits : Whole whole) :
      Mantissa (sign ++ whole)
  | fraction {sign whole part : Bytes} (minus : Minus sign) (digits : Whole whole)
      (fraction : Fraction part) : Mantissa (sign ++ (whole ++ part))

/-- **What has been read** when the reader is at a place in a number. -/
inductive Upto : NumberPlace → Bytes → Prop
  | minus : Upto .minus ['-'.toUInt8]
  | zero {sign : Bytes} (minus : Minus sign) : Upto .zero (sign ++ ['0'.toUInt8])
  | integer {sign more : Bytes} {b : UInt8} (minus : Minus sign) (first : 0x31 ≤ b ∧ b ≤ 0x39)
      (digits : Digits more) : Upto .integer (sign ++ b :: more)
  | point {sign whole : Bytes} (minus : Minus sign) (digits : Whole whole) :
      Upto .point (sign ++ (whole ++ ['.'.toUInt8]))
  | fraction {sign whole part : Bytes} (minus : Minus sign) (digits : Whole whole)
      (fraction : Fraction part) : Upto .fraction (sign ++ (whole ++ part))
  | exponentMark {text : Bytes} {mark : UInt8} (mantissa : Mantissa text)
      (either : mark = 'e'.toUInt8 ∨ mark = 'E'.toUInt8) : Upto .exponentMark (text ++ [mark])
  | exponentSign {text : Bytes} {mark sign : UInt8} (mantissa : Mantissa text)
      (either : mark = 'e'.toUInt8 ∨ mark = 'E'.toUInt8)
      (signed : sign = '+'.toUInt8 ∨ sign = '-'.toUInt8) :
      Upto .exponentSign (text ++ [mark, sign])
  | exponent {text power : Bytes} (mantissa : Mantissa text) (exponent : Exponent power) :
      Upto .exponent (text ++ power)

/-- A digit that is not zero. -/
theorem digit_of_ne {b : UInt8} (h : isDigit b = true) (h0 : b ≠ '0'.toUInt8) :
    0x31 ≤ b ∧ b ≤ 0x39 := by
  obtain ⟨hlo, hhi⟩ := isDigit_iff.mp h
  refine ⟨UInt8.lt_iff_le_and_ne.mpr ⟨hlo, fun he => h0 he.symm⟩, hhi⟩

theorem digits_nil : Digits [] := List.forall_mem_nil _

theorem digits_concat {digits : Bytes} {b : UInt8} (h : Digits digits) (hb : isDigit b = true) :
    Digits (digits ++ [b]) := fun x hx => by
  rcases List.mem_append.mp hx with hx | hx
  · exact h x hx
  · rw [List.mem_singleton.mp hx]
    exact isDigit_iff.mp hb

theorem Fraction.concat {part : Bytes} {b : UInt8} (h : Fraction part) (hb : isDigit b = true) :
    Fraction (part ++ [b]) := by
  obtain ⟨_, all⟩ := h
  exact .mk (List.append_ne_nil_of_right_ne_nil _ (List.cons_ne_nil b [])) (digits_concat all hb)

theorem Exponent.concat {power : Bytes} {b : UInt8} (h : Exponent power)
    (hb : isDigit b = true) : Exponent (power ++ [b]) := by
  obtain ⟨either, signed, _, all⟩ := h
  rw [List.cons_append, List.append_assoc]
  exact .mk either signed (List.append_ne_nil_of_right_ne_nil _ (List.cons_ne_nil b []))
    (digits_concat all hb)

/-- The first byte of a number leads to its place. -/
theorem upto_first {p : NumberPlace} {b : UInt8} (h : NumberPlace.first? b = some p) :
    Upto p [b] := by
  unfold NumberPlace.first? at h
  split at h
  · next hb =>
    cases h
    rw [hb]
    exact .minus
  · split at h
    · next hb =>
      cases h
      rw [hb]
      exact .zero .none
    · next h0 =>
      split at h
      · next hd =>
        cases h
        exact .integer .none (digit_of_ne hd h0) digits_nil
      · cases h

/-- After a mantissa comes an exponent. -/
theorem Upto.mark {p : NumberPlace} {text : Bytes} {b : UInt8} (hm : Mantissa text)
    (hb : (if b = 'e'.toUInt8 ∨ b = 'E'.toUInt8 then some NumberPlace.exponentMark else none) =
      some p) : Upto p (text ++ [b]) := by
  split at hb
  · next he =>
    cases hb
    exact .exponentMark hm he
  · cases hb

/-- **One more byte** leads from what has been read at a place to what has been read at the next. -/
theorem Upto.next {p q : NumberPlace} {text : Bytes} {b : UInt8} (h : Upto p text)
    (hb : p.next? b = some q) : Upto q (text ++ [b]) := by
  cases h with
  | minus =>
    simp only [NumberPlace.next?] at hb
    split at hb
    · next h0 =>
      cases hb
      rw [h0]
      exact .zero .some
    · next h0 =>
      split at hb
      · next hd =>
        cases hb
        exact .integer .some (digit_of_ne hd h0) digits_nil
      · cases hb
  | zero minus =>
    simp only [NumberPlace.next?] at hb
    split at hb
    · next hp =>
      cases hb
      rw [hp, List.append_assoc]
      exact .point minus .zero
    · exact .mark (.whole minus .zero) hb
  | integer minus first digits =>
    simp only [NumberPlace.next?] at hb
    split at hb
    · next hd =>
      cases hb
      rw [List.append_assoc, List.cons_append]
      exact .integer minus first (digits_concat digits hd)
    · split at hb
      · next hp =>
        cases hb
        rw [hp, List.append_assoc]
        exact .point minus (.digits first digits)
      · exact .mark (.whole minus (.digits first digits)) hb
  | point minus digits =>
    simp only [NumberPlace.next?] at hb
    split at hb
    · next hd =>
      cases hb
      rw [List.append_assoc, List.append_assoc]
      refine .fraction minus digits (.mk (List.cons_ne_nil b []) fun x hx => ?_)
      rw [List.mem_singleton.mp hx]
      exact isDigit_iff.mp hd
    · cases hb
  | fraction minus digits fraction =>
    simp only [NumberPlace.next?] at hb
    split at hb
    · next hd =>
      cases hb
      rw [List.append_assoc, List.append_assoc]
      exact .fraction minus digits (fraction.concat hd)
    · exact .mark (.fraction minus digits fraction) hb
  | exponentMark mantissa either =>
    simp only [NumberPlace.next?] at hb
    split at hb
    · next hs =>
      cases hb
      rw [List.append_assoc]
      exact .exponentSign mantissa either hs
    · split at hb
      · next hd =>
        cases hb
        rw [List.append_assoc]
        exact .exponent mantissa (.mk either (.inl rfl) (List.cons_ne_nil b [])
          (digits_concat digits_nil hd))
      · cases hb
  | @exponentSign text mark sign mantissa either signed =>
    simp only [NumberPlace.next?] at hb
    split at hb
    · next hd =>
      cases hb
      have hsign : [sign] = [] ∨ [sign] = ['+'.toUInt8] ∨ [sign] = ['-'.toUInt8] :=
        .inr (signed.imp (congrArg (· :: [])) (congrArg (· :: [])))
      rw [List.append_assoc]
      exact .exponent mantissa (.mk either hsign (List.cons_ne_nil b [])
        (digits_concat digits_nil hd))
    · cases hb
  | exponent mantissa exponent =>
    simp only [NumberPlace.next?] at hb
    split at hb
    · next hd =>
      cases hb
      rw [List.append_assoc]
      exact .exponent mantissa (exponent.concat hd)
    · cases hb

/-- Where a number may end, what has been read is one. -/
theorem Upto.number {p : NumberPlace} {text : Bytes} {kind : TokenKind} (h : Upto p text)
    (hk : p.kind? = some kind) : Number kind text := by
  cases h with
  | minus | point | exponentMark | exponentSign => cases hk
  | zero minus =>
    cases hk
    exact .integer minus .zero
  | integer minus first digits =>
    cases hk
    exact .integer minus (.digits first digits)
  | fraction minus digits fraction =>
    cases hk
    exact .fraction minus digits fraction
  | exponent mantissa exponent =>
    cases hk
    cases mantissa with
    | whole minus digits =>
      rw [List.append_assoc]
      exact .exponent minus digits exponent
    | fraction minus digits fraction =>
      rw [List.append_assoc, List.append_assoc]
      exact .both minus digits fraction exponent

/-- What has been read begins a number: where it is none yet, a zero makes it one. -/
theorem Upto.readable {p : NumberPlace} {text : Bytes} (h : Upto p text) : Readable text := by
  have here {kind : TokenKind} (hk : p.kind? = some kind) : Readable text :=
    ⟨kind, [], by
      rw [List.append_nil]
      exact h.number hk⟩
  have withZero {q : NumberPlace} {kind : TokenKind} (hq : p.next? '0'.toUInt8 = some q)
      (hk : q.kind? = some kind) : Readable text := ⟨kind, ['0'.toUInt8], (h.next hq).number hk⟩
  cases p with
  | zero | integer | fraction | exponent => exact here rfl
  | minus | point | exponentMark | exponentSign => exact withZero rfl rfl

/-! ## 3. The way through a number -/

/-- Where bytes lead from a place in a number, if the number can go on with all of them. -/
def along? : NumberPlace → Bytes → Option NumberPlace
  | p, [] => some p
  | p, b :: rest =>
    match p.next? b with
    | some q => along? q rest
    | none => none

/-- What can be gone along can be gone along in parts. -/
theorem along?_append {q : NumberPlace} {v : Bytes} : ∀ {u : Bytes} {p : NumberPlace},
    along? p (u ++ v) = some q → ∃ r, along? p u = some r ∧ along? r v = some q
  | [], p, h => ⟨p, rfl, h⟩
  | b :: u, p, h => by
    rw [List.cons_append, along?] at h
    rw [along?]
    split at h
    · exact along?_append h
    · cases h

theorem Upto.along {q : NumberPlace} : ∀ {more text : Bytes} {p : NumberPlace}, Upto p text →
    along? p more = some q → Upto q (text ++ more)
  | [], text, p, h, ha => by
    cases ha
    rwa [List.append_nil]
  | b :: more, text, p, h, ha => by
    rw [along?] at ha
    split at ha
    · next hb =>
      have := (h.next hb).along ha
      rwa [List.append_assoc] at this
    · cases ha

/-- Nothing that follows goes on with a number that ends at a place. -/
def Stopped (p : NumberPlace) (rest : Bytes) : Prop :=
  ∀ b more, rest = b :: more → p.next? b = none ∧ p.forbids b = false

/-- The reader ends where it can go no further, if a number can end there. -/
theorem lexNumber_along {kind : TokenKind} {stop : Stop} :
    ∀ {bytes : Bytes} {p : NumberPlace} {offset : Nat},
      lexNumber p offset bytes = .ok (kind, stop) → ∃ text q, bytes = text ++ stop.rest ∧
        along? p text = some q ∧ q.kind? = some kind ∧ Stopped q stop.rest
  | [], p, offset, h => by
    unfold lexNumber at h
    split at h
    · next hk =>
      cases h
      exact ⟨[], p, rfl, rfl, hk, nofun⟩
    · cases h
  | b :: rest, p, offset, h => by
    unfold lexNumber at h
    split at h
    · next r hr =>
      obtain ⟨text, q, hs, ha, hk, hstop⟩ := lexNumber_along h
      refine ⟨b :: text, q, by rw [hs, List.cons_append], ?_, hk, hstop⟩
      rw [along?, hr]
      exact ha
    · next hnext =>
      split at h
      · next hk =>
        split at h
        · cases h
        · next hf =>
          cases h
          refine ⟨[], p, rfl, rfl, hk, fun x more he => ?_⟩
          cases he
          exact ⟨hnext, Bool.eq_false_iff.mpr hf⟩
      · cases h

theorem lexNumber_of_along {q : NumberPlace} {kind : TokenKind} {rest : Bytes}
    (hk : q.kind? = some kind) (hs : Stopped q rest) :
    ∀ {text : Bytes} {p : NumberPlace} (offset : Nat), along? p text = some q →
      lexNumber p offset (text ++ rest) = .ok (kind, ⟨offset + text.length, rest⟩)
  | [], p, offset, h => by
    cases h
    cases rest with
    | nil => rw [List.nil_append, lexNumber, hk]; rfl
    | cons b more =>
      obtain ⟨hnext, hforbids⟩ := hs b more rfl
      rw [List.nil_append, lexNumber, hnext]
      simp only [hk, hforbids]
      rfl
  | b :: text, p, offset, h => by
    rw [along?] at h
    cases hb : p.next? b with
    | none =>
      rw [hb] at h
      cases h
    | some r =>
      rw [hb] at h
      have hrest := lexNumber_of_along hk hs (offset + 1) (h : along? r text = some q)
      rw [List.cons_append, lexNumber, hb]
      dsimp only
      rw [hrest, List.length_cons, Nat.add_assoc, Nat.add_comm 1]

/-- A number can be gone along to a place where it may end. -/
theorem along?_of_number {kind : TokenKind} {text : Bytes} (h : Number kind text) :
    ∃ b more p q, text = b :: more ∧ NumberPlace.first? b = some p ∧ along? p more = some q ∧
      q.kind? = some kind := by
  obtain ⟨b, more, p, he, hfirst, hread⟩ := lexNumber_number h .nil
  obtain ⟨u, q, hs, ha, hk, -⟩ := lexNumber_along (hread 0)
  rw [List.append_nil, List.append_nil] at hs
  exact ⟨b, more, p, q, he, hfirst, hs ▸ ha, hk⟩

/-- **The reader can go along what begins a number**, and along nothing else. -/
theorem readable_iff {b : UInt8} {more : Bytes} : Readable (b :: more) ↔
    ∃ p q, NumberPlace.first? b = some p ∧ along? p more = some q := by
  constructor
  · rintro ⟨kind, rest, h⟩
    obtain ⟨b', more', p, q, he, hfirst, ha, -⟩ := along?_of_number h
    rw [List.cons_append] at he
    obtain ⟨rfl, rfl⟩ := List.cons.inj he
    obtain ⟨r, hr, -⟩ := along?_append ha
    exact ⟨p, r, hfirst, hr⟩
  · rintro ⟨p, q, hfirst, ha⟩
    exact ((upto_first hfirst).along ha).readable

/-! ## 4. Reading numbers -/

variable {kind : TokenKind} {b : UInt8} {p : NumberPlace}

/-- Zero is at its place, and nothing else is there. -/
theorem zero_iff {q : NumberPlace} {more : Bytes} (hfirst : NumberPlace.first? b = some p)
    (ha : along? p more = some q) : Zero (b :: more) ↔ q = .zero := by
  constructor
  · intro h
    generalize hz : b :: more = text at h
    obtain ⟨minus⟩ := h
    cases minus with
    | none =>
      cases hz
      cases hfirst
      cases ha
      rfl
    | some =>
      cases hz
      cases hfirst
      cases ha
      rfl
  · rintro rfl
    have h := (upto_first hfirst).along ha
    rw [List.singleton_append] at h
    generalize b :: more = text at h
    cases h with
    | zero minus => exact .mk minus

/-- A beginning that is longer than another goes on with the byte after that. -/
theorem longer_beginning {text rest u : Bytes} (hu : u <+: text ++ rest)
    (hlt : text.length < u.length) : ∃ x v more, u = text ++ x :: v ∧ rest = x :: more := by
  obtain ⟨w, rfl⟩ := List.prefix_of_prefix_length_le (List.prefix_append text rest) hu
    (Nat.le_of_lt hlt)
  obtain ⟨more, rfl⟩ := (List.prefix_append_right_inj text).mp hu
  cases w with
  | nil =>
    rw [List.append_nil] at hlt
    exact absurd hlt (Nat.lt_irrefl _)
  | cons x v => exact ⟨x, v, v ++ more, rfl, rfl⟩

/-- **What the reader ends with is the longest number.** -/
theorem lexNumber_sound {stop : Stop} {bytes : Bytes} {offset : Nat}
    (hfirst : NumberPlace.first? b = some p)
    (h : lexNumber p offset bytes = .ok (kind, stop)) :
    ∃ more, bytes = more ++ stop.rest ∧ LongestNumber kind (b :: more) stop.rest := by
  obtain ⟨more, q, hs, ha, hk, hstop⟩ := lexNumber_along h
  refine ⟨more, hs, ((upto_first hfirst).along ha).number hk, fun u hu hr => ?_, fun hz x rest he hx => ?_⟩
  · -- a longer beginning goes on where the reader could not
    refine Nat.le_of_not_lt fun hlt => ?_
    obtain ⟨x, v, rest, rfl, he⟩ := longer_beginning hu hlt
    obtain ⟨p', r, hfirst', ha'⟩ := readable_iff.mp hr
    rw [hfirst] at hfirst'
    cases hfirst'
    obtain ⟨q', hq', hx⟩ := along?_append ha'
    rw [ha] at hq'
    cases hq'
    rw [along?, (hstop x rest he).1] at hx
    cases hx
  · have hforbids := (hstop x rest he).2
    rw [(zero_iff hfirst ha).mp hz, NumberPlace.forbids, isDigit_iff.mpr hx] at hforbids
    cases hforbids

/-- **The longest number is read.** -/
theorem lexNumber_complete {more rest : Bytes} (h : LongestNumber kind (b :: more) rest) :
    ∃ p, NumberPlace.first? b = some p ∧ ∀ offset,
      lexNumber p offset (more ++ rest) = .ok (kind, ⟨offset + more.length, rest⟩) := by
  obtain ⟨b', more', p, q, he, hfirst, ha, hk⟩ := along?_of_number h.complete
  obtain ⟨rfl, rfl⟩ := List.cons.inj he
  refine ⟨p, hfirst, fun offset => lexNumber_of_along hk (fun x after hx => ⟨?_, ?_⟩) offset ha⟩
  · cases hn : q.next? x with
    | none => rfl
    | some r =>
      -- the number and the byte after it would begin a number too
      have hreadable := (((upto_first hfirst).along ha).next hn).readable
      have hlength := h.longest ([b] ++ more ++ [x]) ⟨after, by simp [hx]⟩ hreadable
      simp only [List.length_append, List.length_cons, List.length_nil] at hlength
      omega
  · cases hf : q.forbids x with
    | false => rfl
    | true =>
      rw [NumberPlace.forbids, Bool.and_eq_true, beq_iff_eq] at hf
      exact absurd (isDigit_iff.mp hf.2) (h.zero ((zero_iff hfirst ha).mpr hf.1) x after hx)

end Sift.Grammar
