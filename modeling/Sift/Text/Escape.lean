/-!
# Escapes in strings

The body of a string in a document, the part between its quotes, may write a character raw or by
an escape. `Text.Escape.decode` reads a body character by character and keeps apart what stands
for no character: an unpaired surrogate, or four digits that are not digits.

* `unescape` gives every body a text, with U+FFFD in those places;
* `strict?` refuses a body that has such a place.

Going the other way, `escaped` and `quoted` write a text with the shortest escape for each
character that needs one.
-/

namespace Sift.Text

/-! ## 1. Hexadecimal digits -/

/-- The value of a hexadecimal digit, in either case. -/
def hexDigit? (c : Char) : Option Nat :=
  let n := c.toNat
  if 0x30 ≤ n ∧ n ≤ 0x39 then some (n - 0x30)
  else if 0x41 ≤ n ∧ n ≤ 0x46 then some (n - 0x41 + 10)
  else if 0x61 ≤ n ∧ n ≤ 0x66 then some (n - 0x61 + 10)
  else none

/-- The hexadecimal digit of value `n`, in lower case. -/
def hexDigit (n : Nat) : Char :=
  Char.ofNat (if n < 10 then 0x30 + n else 0x61 + (n - 10))

/-- A number below 65536 as four hexadecimal digits. -/
def hex4 (n : Nat) : List Char :=
  [hexDigit (n / 4096 % 16), hexDigit (n / 256 % 16), hexDigit (n / 16 % 16), hexDigit (n % 16)]

/-- A number in hexadecimal, without leading zeros. -/
def hex (n : Nat) : List Char := Nat.toDigits 16 n

namespace Escape

/-! ## 2. Reading -/

/-- Reads `k` more digits of a code unit whose earlier digits spell `n`. The second part is what
    follows: all the digits, or the first character that is none. -/
def unit : (k n : Nat) → List Char → Option Nat × List Char
  | 0, n, rest => (some n, rest)
  | _ + 1, _, [] => (none, [])
  | k + 1, n, c :: rest =>
    match hexDigit? c with
    | some d => unit k (n * 16 + d) rest
    | none => (none, rest)

theorem unit_length : ∀ (k n : Nat) (s : List Char), (unit k n s).2.length ≤ s.length
  | 0, _, _ => Nat.le_refl _
  | _ + 1, _, [] => Nat.le_refl _
  | k + 1, n, c :: rest => by
    unfold unit
    split
    · exact Nat.le_succ_of_le (unit_length k _ rest)
    · exact Nat.le_succ _

/-- A code unit that opens a pair. -/
def isHigh (n : Nat) : Bool := 0xD800 ≤ n && n < 0xDC00

/-- A code unit that closes a pair. -/
def isLow (n : Nat) : Bool := 0xDC00 ≤ n && n < 0xE000

/-- The character of a single code unit. A surrogate is none. -/
def scalar? (n : Nat) : Option Char := if n.isValidChar then some (Char.ofNat n) else none

/-- The number a pair of surrogates stands for. -/
def pair (high low : Nat) : Nat := 0x10000 + (high - 0xD800) * 0x400 + (low - 0xDC00)

/-- The closing surrogate that `s` starts with as an escape, and what follows it. -/
def low? : List Char → Option (Nat × List Char)
  | '\\' :: 'u' :: rest =>
    match unit 4 0 rest with
    | (some n, more) => if isLow n then some (n, more) else none
    | (none, _) => none
  | _ => none

theorem low?_length {s rest : List Char} {n : Nat} (h : low? s = some (n, rest)) :
    rest.length ≤ s.length := by
  unfold low? at h
  split at h
  · rename_i body
    have hu := unit_length 4 0 body
    split at h
    · rename_i m more hm
      rw [hm] at hu
      split at h
      · cases h
        exact Nat.le_succ_of_le (Nat.le_succ_of_le hu)
      · cases h
    · cases h
  · cases h

/-- The character that the digits after a `u` stand for, and what follows. An opening surrogate
    takes the next escape with it only if that one closes the pair. -/
def afterU (s : List Char) : Option Char × List Char :=
  match unit 4 0 s with
  | (none, rest) => (none, rest)
  | (some n, rest) =>
    if isHigh n then
      match low? rest with
      | some (low, more) => (scalar? (pair n low), more)
      | none => (none, rest)
    else (scalar? n, rest)

theorem afterU_length (s : List Char) : (afterU s).2.length ≤ s.length := by
  have hu := unit_length 4 0 s
  unfold afterU
  split
  · rename_i h
    rw [h] at hu
    exact hu
  · rename_i h
    rw [h] at hu
    split
    · split
      · rename_i hl
        exact Nat.le_trans (low?_length hl) hu
      · exact hu
    · exact hu

/-- The character that a letter after a backslash names. -/
def named (c : Char) : Char :=
  match c with
  | 'n' => '\n'
  | 't' => '\t'
  | 'r' => '\r'
  | 'b' => Char.ofNat 8
  | 'f' => Char.ofNat 12
  | c => c

/-- The character that a body begins with, its escape resolved, and what follows it. The first part
    is `none` where the escape names no character. A backslash at the very end stands for
    nothing. -/
def next? : List Char → Option (Option Char × List Char)
  | [] => none
  | ['\\'] => none
  | '\\' :: 'u' :: rest => some (afterU rest)
  | '\\' :: c :: rest => some (some (named c), rest)
  | c :: rest => some (some c, rest)

theorem next?_length {s rest : List Char} {c : Option Char} (h : next? s = some (c, rest)) :
    rest.length < s.length := by
  unfold next? at h
  split at h
  · cases h
  · cases h
  · rename_i digits
    have hu := afterU_length digits
    rw [Option.some.inj h] at hu
    exact Nat.lt_succ_of_lt (Nat.lt_succ_of_le hu)
  · cases h
    exact Nat.lt_succ_of_lt (Nat.lt_succ_self _)
  · cases h
    exact Nat.lt_succ_self _

/-- What a body stands for, one entry a character. -/
def decode (s : List Char) : List (Option Char) :=
  match _read : next? s with
  | some (c, rest) => c :: decode rest
  | none => []
termination_by s.length
decreasing_by exact next?_length _read

/-- The mark that stands for what is no character. -/
def replacement : Char := Char.ofNat 0xFFFD

/-- The text of a body, with U+FFFD where an escape names no character. -/
def unescape (s : List Char) : List Char := (decode s).map (·.getD replacement)

/-- The text of a body in which every escape names a character. -/
def strict? (s : List Char) : Option (List Char) := (decode s).mapM id

/-! ## 3. Writing -/

/-- One character inside quotes: a quote, a backslash or a control character is escaped, by a
    letter where there is one. -/
def escapedChar (c : Char) : List Char :=
  match c with
  | '"' => ['\\', '"']
  | '\\' => ['\\', '\\']
  | '\n' => ['\\', 'n']
  | '\r' => ['\\', 'r']
  | '\t' => ['\\', 't']
  | c =>
    if c.toNat = 8 then ['\\', 'b']
    else if c.toNat = 12 then ['\\', 'f']
    else if c.toNat < 0x20 then '\\' :: 'u' :: hex4 c.toNat
    else [c]

/-- The body that spells a text. -/
def escaped (s : List Char) : List Char := s.flatMap escapedChar

/-- A text as a string of a document, quotes included. -/
def quoted (s : List Char) : List Char := '"' :: escaped s ++ ['"']

end Escape

end Sift.Text
