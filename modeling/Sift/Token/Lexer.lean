import Sift.Token
import Sift.Text.Blank

/-!
# Reading a token

`Token.lex` reads the token that bytes start with, after the gap before it, and gives what
follows. It goes byte by byte through three small machines, each by recursion on the bytes:

* `lexString` from the opening quote to the closing one;
* `lexNumber`, whose states are the places inside a number; it stops where no state follows, and
  the place it stops at says whether the number is complete;
* `lexWord` along one of the three words.

**The rest is what lies past the token** (`lex_rest`), so a position and the bytes after it never
come apart.
-/

namespace Sift.Token

/-! ## 1. Bytes -/

/-- A decimal digit. -/
def isDigit (b : UInt8) : Bool := 0x30 ≤ b && b ≤ 0x39

/-- A hexadecimal digit. -/
def isHexDigit (b : UInt8) : Bool :=
  isDigit b || (0x41 ≤ b && b ≤ 0x46) || (0x61 ≤ b && b ≤ 0x66)

/-- A byte that may follow a backslash and makes an escape of two bytes. -/
def isShortEscape (b : UInt8) : Bool :=
  b == '"'.toUInt8 || b == '\\'.toUInt8 || b == '/'.toUInt8 || b == 'b'.toUInt8 ||
    b == 'f'.toUInt8 || b == 'n'.toUInt8 || b == 'r'.toUInt8 || b == 't'.toUInt8

/-- What a token's last part leaves: the offset one past it and the bytes from there. -/
structure Stop where
  offset : Nat
  rest : Bytes

/-! ## 2. Strings -/

/-- A place inside a string. -/
inductive StringPlace
  /-- Between two characters. -/
  | plain
  /-- After a backslash. -/
  | escape
  /-- Inside a four-digit escape, with `more + 1` digits to come. -/
  | digits (more : Nat)

/-- Reads on in the string that began at `start`, up to and with its closing quote. `escaped` says
    whether an escape has been met. -/
def lexString (start : Nat) : StringPlace → (escaped : Bool) → (offset : Nat) → Bytes →
    Except LexError (Bool × Stop)
  | _, _, _, [] => .error (.unterminatedString start)
  | .plain, escaped, offset, b :: rest =>
    if b = '"'.toUInt8 then .ok (escaped, ⟨offset + 1, rest⟩)
    else if b = '\\'.toUInt8 then lexString start .escape true (offset + 1) rest
    else if b < 0x20 then .error (.controlChar offset)
    else lexString start .plain escaped (offset + 1) rest
  | .escape, escaped, offset, b :: rest =>
    if isShortEscape b then lexString start .plain escaped (offset + 1) rest
    else if b = 'u'.toUInt8 then lexString start (.digits 3) escaped (offset + 1) rest
    else .error (.badEscape offset)
  | .digits more, escaped, offset, b :: rest =>
    if isHexDigit b then
      match more with
      | 0 => lexString start .plain escaped (offset + 1) rest
      | more + 1 => lexString start (.digits more) escaped (offset + 1) rest
    else .error (.badEscape offset)

/-! ## 3. Numbers -/

/-- A place inside a number, named for what was read last. -/
inductive NumberPlace
  | minus | zero | integer | point | fraction | exponentMark | exponentSign | exponent
  deriving DecidableEq, Repr

namespace NumberPlace

/-- Where a number's first byte leads. -/
def first? (b : UInt8) : Option NumberPlace :=
  if b = '-'.toUInt8 then some .minus
  else if b = '0'.toUInt8 then some .zero
  else if isDigit b then some .integer
  else none

/-- Where one more byte leads, if the number can go on with it. -/
def next? (p : NumberPlace) (b : UInt8) : Option NumberPlace :=
  let isPoint := b = '.'.toUInt8
  let isMark := b = 'e'.toUInt8 ∨ b = 'E'.toUInt8
  let isSign := b = '+'.toUInt8 ∨ b = '-'.toUInt8
  match p with
  | .minus => if b = '0'.toUInt8 then some .zero else if isDigit b then some .integer else none
  | .zero => if isPoint then some .point else if isMark then some .exponentMark else none
  | .integer =>
    if isDigit b then some .integer
    else if isPoint then some .point
    else if isMark then some .exponentMark
    else none
  | .point => if isDigit b then some .fraction else none
  | .fraction =>
    if isDigit b then some .fraction else if isMark then some .exponentMark else none
  | .exponentMark =>
    if isSign then some .exponentSign else if isDigit b then some .exponent else none
  | .exponentSign => if isDigit b then some .exponent else none
  | .exponent => if isDigit b then some .exponent else none

/-- The kind of a number that ends here, if one can. -/
def kind? : NumberPlace → Option TokenKind
  | .zero | .integer => some .integer
  | .fraction | .exponent => some .number
  | .minus | .point | .exponentMark | .exponentSign => none

/-- Whether the byte `b` may not follow a number that ends here: a digit after a zero. -/
def forbids (p : NumberPlace) (b : UInt8) : Bool := p == .zero && isDigit b

end NumberPlace

/-- Reads on in a number from a place in it, as far as it goes. -/
def lexNumber : NumberPlace → (offset : Nat) → Bytes → Except LexError (TokenKind × Stop)
  | p, offset, [] =>
    match p.kind? with
    | some kind => .ok (kind, ⟨offset, []⟩)
    | none => .error (.unexpectedEnd offset)
  | p, offset, b :: rest =>
    match p.next? b with
    | some p => lexNumber p (offset + 1) rest
    | none =>
      match p.kind? with
      | some kind =>
        if p.forbids b then .error (.malformedNumber offset)
        else .ok (kind, ⟨offset, b :: rest⟩)
      | none => .error (.malformedNumber offset)

/-! ## 4. Words -/

/-- Reads the rest of the word that began at `start`. -/
def lexWord (start : Nat) : (word : Bytes) → (offset : Nat) → Bytes → Except LexError Stop
  | [], offset, rest => .ok ⟨offset, rest⟩
  | _ :: _, offset, [] => .error (.unexpectedEnd offset)
  | w :: word, offset, b :: rest =>
    if b = w then lexWord start word (offset + 1) rest else .error (.malformedLiteral start)

/-- The word a first byte announces: its other bytes, and the token's kind. -/
def word? (b : UInt8) : Option (Bytes × TokenKind) :=
  if b = 't'.toUInt8 then some (['r', 'u', 'e'].map Char.toUInt8, .true)
  else if b = 'f'.toUInt8 then some (['a', 'l', 's', 'e'].map Char.toUInt8, .false)
  else if b = 'n'.toUInt8 then some (['u', 'l', 'l'].map Char.toUInt8, .null)
  else none

/-! ## 5. Tokens -/

/-- The token of one byte that `b` is, if it is one. -/
def structural? (b : UInt8) : Option TokenKind :=
  if b = '\x7b'.toUInt8 then some .objectStart
  else if b = '\x7d'.toUInt8 then some .objectEnd
  else if b = '['.toUInt8 then some .arrayStart
  else if b = ']'.toUInt8 then some .arrayEnd
  else if b = ':'.toUInt8 then some .keyDelim
  else if b = ','.toUInt8 then some .listDelim
  else none

/-- The token from `bytes` at `offset` up to where it stops, and what follows. -/
def upTo (offset : Nat) (bytes : Bytes) (kind : TokenKind) (stop : Stop) : Token × Bytes :=
  (⟨kind, offset, bytes.take (stop.offset - offset)⟩, stop.rest)

/-- What an error calls the first of `bytes`: the character that is there, or else the character
    of that number. -/
def shown (b : UInt8) (rest : Bytes) : Char :=
  ((Utf8.decodeChar? (b :: rest)).map (·.1)).getD (Char.ofNat b.toNat)

/-- Reads the token that starts with the byte `b`. -/
def lexeme (offset : Nat) (b : UInt8) (rest : Bytes) : Except LexError (Token × Bytes) :=
  let token := upTo offset (b :: rest)
  match structural? b with
  | some kind => .ok (token kind ⟨offset + 1, rest⟩)
  | none =>
    if b = '"'.toUInt8 then
      match lexString offset .plain false (offset + 1) rest with
      | .ok (escaped, stop) => .ok (token (if escaped then .escString else .string) stop)
      | .error e => .error e
    else
      match NumberPlace.first? b with
      | some p =>
        match lexNumber p (offset + 1) rest with
        | .ok (kind, stop) => .ok (token kind stop)
        | .error e => .error e
      | none =>
        match word? b with
        | some (word, kind) =>
          match lexWord offset word (offset + 1) rest with
          | .ok stop => .ok (token kind stop)
          | .error e => .error e
        | none => .error (.unexpectedChar offset (shown b rest))

/-- **The token that `bytes` hold first**, with what follows it. The gap before a token belongs to
    no token; where nothing but a gap is left, the token is the end. -/
def lex : (offset : Nat) → Bytes → Except LexError (Token × Bytes)
  | offset, [] => .ok (⟨.finish, offset, []⟩, [])
  | offset, b :: rest => if isGap b then lex (offset + 1) rest else lexeme offset b rest

/-! ## 6. Where a token stops -/

/-- The bytes left at a stop are those of `bytes`, which begin at `offset`, from there on. -/
def Stop.Past (s : Stop) (offset : Nat) (bytes : Bytes) : Prop :=
  ∃ n, n ≤ bytes.length ∧ s.offset = offset + n ∧ s.rest = bytes.drop n

theorem Stop.past_self (offset : Nat) (bytes : Bytes) : Stop.Past ⟨offset, bytes⟩ offset bytes :=
  ⟨0, Nat.zero_le _, rfl, rfl⟩

theorem Stop.Past.cons {s : Stop} {offset : Nat} {rest : Bytes} (b : UInt8)
    (h : s.Past (offset + 1) rest) : s.Past offset (b :: rest) := by
  obtain ⟨n, hn, ho, hr⟩ := h
  exact ⟨n + 1, Nat.succ_le_succ hn, by omega, by simpa using hr⟩

theorem lexString_past {start : Nat} {stop : Stop} {out : Bool} :
    ∀ {bytes : Bytes} {p : StringPlace} {escaped : Bool} {offset : Nat},
      lexString start p escaped offset bytes = .ok (out, stop) → stop.Past offset bytes
  | [], p, _, _, h => by cases p <;> cases h
  | b :: rest, .plain, escaped, offset, h => by
    unfold lexString at h
    split at h
    · cases h
      exact (Stop.past_self _ _).cons b
    · split at h
      · exact (lexString_past h).cons b
      · split at h
        · cases h
        · exact (lexString_past h).cons b
  | b :: rest, .escape, escaped, offset, h => by
    unfold lexString at h
    split at h
    · exact (lexString_past h).cons b
    · split at h
      · exact (lexString_past h).cons b
      · cases h
  | b :: rest, .digits more, escaped, offset, h => by
    unfold lexString at h
    split at h
    · split at h
      · exact (lexString_past h).cons b
      · exact (lexString_past h).cons b
    · cases h

theorem lexNumber_past {stop : Stop} {kind : TokenKind} :
    ∀ {bytes : Bytes} {p : NumberPlace} {offset : Nat},
      lexNumber p offset bytes = .ok (kind, stop) → stop.Past offset bytes
  | [], p, offset, h => by
    unfold lexNumber at h
    split at h
    · cases h
      exact Stop.past_self _ _
    · cases h
  | b :: rest, p, offset, h => by
    unfold lexNumber at h
    split at h
    · exact (lexNumber_past h).cons b
    · split at h
      · split at h
        · cases h
        · cases h
          exact Stop.past_self _ _
      · cases h

theorem lexWord_past {start : Nat} {stop : Stop} :
    ∀ {word : Bytes} {bytes : Bytes} {offset : Nat},
      lexWord start word offset bytes = .ok stop → stop.Past offset bytes
  | [], bytes, offset, h => by
    unfold lexWord at h
    cases h
    exact Stop.past_self _ _
  | _ :: _, [], _, h => by
    unfold lexWord at h
    cases h
  | w :: word, b :: rest, offset, h => by
    unfold lexWord at h
    split at h
    · exact (lexWord_past h).cons b
    · cases h

/-- A token up to a stop past its start is as long as the way to the stop. -/
theorem upTo_stop {offset : Nat} {bytes : Bytes} {kind : TokenKind} {stop : Stop}
    (h : stop.Past offset bytes) :
    (upTo offset bytes kind stop).1.stop = stop.offset ∧
      (upTo offset bytes kind stop).2 = bytes.drop (stop.offset - offset) := by
  obtain ⟨n, hn, ho, hr⟩ := h
  have hs : stop.offset - offset = n := by omega
  constructor
  · simp only [upTo, Token.stop, hs, List.length_take]
    omega
  · simp only [upTo, hs, hr]

/-- The rest after a token, and where it begins. -/
def Ends (offset : Nat) (bytes : Bytes) (result : Token × Bytes) : Prop :=
  offset ≤ result.1.stop ∧ result.2 = bytes.drop (result.1.stop - offset)

/-- A token with at least one byte of its own, its first, ends past it. -/
theorem upTo_ends {offset : Nat} {b : UInt8} {rest : Bytes} {kind : TokenKind} {stop : Stop}
    (h : stop.Past (offset + 1) rest) :
    offset < (upTo offset (b :: rest) kind stop).1.stop ∧
      Ends offset (b :: rest) (upTo offset (b :: rest) kind stop) := by
  obtain ⟨h₁, h₂⟩ := @upTo_stop offset (b :: rest) kind stop (h.cons b)
  obtain ⟨n, _, ho, _⟩ := h
  exact ⟨by omega, by omega, by rw [h₁]; exact h₂⟩

theorem lexeme_ends {offset : Nat} {b : UInt8} {rest : Bytes} {result : Token × Bytes}
    (h : lexeme offset b rest = .ok result) :
    offset < result.1.stop ∧ Ends offset (b :: rest) result := by
  unfold lexeme at h
  split at h
  · cases h
    exact upTo_ends (Stop.past_self _ _)
  · split at h
    · split at h
      · rename_i hs
        cases h
        exact upTo_ends (lexString_past hs)
      · cases h
    · split at h
      · split at h
        · rename_i hs
          cases h
          exact upTo_ends (lexNumber_past hs)
        · cases h
      · split at h
        · split at h
          · rename_i hs
            cases h
            exact upTo_ends (lexWord_past hs)
          · cases h
        · cases h

/-- **What follows a token is what lies past it.** -/
theorem lex_ends {result : Token × Bytes} : ∀ {bytes : Bytes} {offset : Nat},
    lex offset bytes = .ok result → Ends offset bytes result
  | [], offset, h => by
    cases h
    exact ⟨Nat.le_refl _, List.drop_nil.symm⟩
  | b :: rest, offset, h => by
    unfold lex at h
    split at h
    · obtain ⟨h₁, h₂⟩ := lex_ends h
      refine ⟨by omega, ?_⟩
      have : result.1.stop - offset = (result.1.stop - (offset + 1)) + 1 := by omega
      rw [this, List.drop_succ_cons]
      exact h₂
    · exact (lexeme_ends h).2

/-- **Every token but the end uses up a byte.** -/
theorem lex_length {result : Token × Bytes} (hk : result.1.kind ≠ .finish) :
    ∀ {bytes : Bytes} {offset : Nat},
      lex offset bytes = .ok result → result.2.length < bytes.length
  | [], offset, h => by
    cases h
    exact absurd rfl hk
  | b :: rest, offset, h => by
    unfold lex at h
    split at h
    · exact Nat.lt_succ_of_lt (lex_length hk h)
    · obtain ⟨h₁, _, h₂⟩ := lexeme_ends h
      rw [h₂, List.length_drop, List.length_cons]
      omega

end Sift.Token
