import Sift.Token.Lexer

/-!
# A cursor over a document

A cursor holds a document, a position in it, and how many tokens have been asked for. It can

* `step` to the next token; an error leaves it where it is, and counts all the same;
* `skipContainer`, out of the container it stands in, by counting brackets and minding strings,
  without reading what it passes;
* `seek` to any position, which is how a value read earlier is read again.

The bytes from the position on are kept beside it, and the field `rest_eq` says that they are
those of the document.
-/

namespace Sift

/-! ## 1. The cursor -/

/-- A position in a document. -/
structure Cursor where
  /-- The whole document. -/
  data : Bytes
  /-- How many of its bytes lie behind. -/
  position : Nat
  /-- The bytes from the position on. -/
  rest : Bytes
  /-- The number of tokens asked for since the document was opened. -/
  steps : Nat
  rest_eq : rest = data.drop position := by simp

namespace Cursor

/-- At the start of a document. -/
def start (data : Bytes) : Cursor := { data, position := 0, rest := data, steps := 0 }

/-- At another position of the same document; past its end is at its end. -/
def seek (c : Cursor) (position : Nat) : Cursor :=
  { data := c.data
    position := min position c.data.length
    rest := c.data.drop (min position c.data.length)
    steps := c.steps
    rest_eq := rfl }

/-! ## 2. Reading a token -/

/-- The next token, and the cursor past it. After an error the cursor stands where it stood. -/
def step (c : Cursor) : Except LexError Token × Cursor :=
  match h : Token.lex c.position c.rest with
  | .ok (token, rest) =>
    (.ok token,
      { data := c.data
        position := token.stop
        rest
        steps := c.steps + 1
        rest_eq := by
          obtain ⟨h₁, h₂⟩ := Token.lex_ends h
          dsimp only at h₁ h₂
          rw [h₂, c.rest_eq, List.drop_drop, Nat.add_sub_cancel' h₁] })
  | .error e => (.error e, { c with steps := c.steps + 1, rest_eq := c.rest_eq })

/-! ## 3. Skipping a container -/

/-- A place in what is being skipped. -/
inductive SkipPlace
  /-- Outside strings, inside `depth` containers besides the one to leave. -/
  | between (depth : Nat)
  /-- In a string that began at `start`. -/
  | inString (start depth : Nat)
  /-- After a backslash in a string that began at `start`. -/
  | escaped (start depth : Nat)

/-- A bracket that opens a container, of either kind. -/
def isOpening (b : UInt8) : Bool := b == '\x7b'.toUInt8 || b == '['.toUInt8

/-- A bracket that closes a container, of either kind. -/
def isClosing (b : UInt8) : Bool := b == '\x7d'.toUInt8 || b == ']'.toUInt8

/-- Where the innermost container ends: the number of bytes up to and with its closing bracket,
    when `n` bytes of the way have been passed. Whether the brackets are of one kind is not
    asked. -/
def skip (offset : Nat) : SkipPlace → (n : Nat) → Bytes → Except LexError Nat
  | .between _, n, [] => .error (.unexpectedEnd (offset + n))
  | .inString start _, _, [] => .error (.unterminatedString start)
  | .escaped start _, _, [] => .error (.unterminatedString start)
  | .between depth, n, b :: rest =>
    if b = '"'.toUInt8 then skip offset (.inString (offset + n) depth) (n + 1) rest
    else if isOpening b then skip offset (.between (depth + 1)) (n + 1) rest
    else if isClosing b then
      match depth with
      | 0 => .ok (n + 1)
      | depth + 1 => skip offset (.between depth) (n + 1) rest
    else skip offset (.between depth) (n + 1) rest
  | .inString start depth, n, b :: rest =>
    if b = '"'.toUInt8 then skip offset (.between depth) (n + 1) rest
    else if b = '\\'.toUInt8 then skip offset (.escaped start depth) (n + 1) rest
    else skip offset (.inString start depth) (n + 1) rest
  | .escaped start depth, n, _ :: rest => skip offset (.inString start depth) (n + 1) rest

/-- The end of the container that the cursor stands in, and the cursor there. After an error it
    stands where it stood. -/
def skipContainer (c : Cursor) : Except LexError Nat × Cursor :=
  match skip c.position (.between 0) 0 c.rest with
  | .ok n =>
    (.ok (c.position + n),
      { data := c.data
        position := c.position + n
        rest := c.rest.drop n
        steps := c.steps
        rest_eq := by rw [c.rest_eq, List.drop_drop] })
  | .error e => (.error e, c)

/-- The cursor past the value whose first token is `token` and has just been read. -/
def skipValue (c : Cursor) (token : Token) : Except LexError Nat × Cursor :=
  if token.kind.opens then c.skipContainer else (.ok token.stop, c)

end Cursor

end Sift
