import Sift.Value
import Sift.Token.Lexer

/-!
# Spans

A span names bytes of a document by where they start and how many they are. A captured value is
kept as its span, and `Span.value` reads it again when it is needed.
-/

namespace Sift

/-- The bytes of a document from an offset on. -/
structure Span where
  offset : Nat
  length : Nat
  deriving DecidableEq, Repr

namespace Span

/-- From one offset up to another. -/
def between (start stop : Nat) : Span := ⟨start, stop - start⟩

/-- The offset one past the last byte. -/
def stop (s : Span) : Nat := s.offset + s.length

/-- The bytes themselves. -/
def text (data : Bytes) (s : Span) : Bytes := (data.drop s.offset).take s.length

/-- Whether there are such bytes, and at least one. -/
def isInside (data : Bytes) (s : Span) : Bool := 0 < s.length && s.stop ≤ data.length

/-- Whether the bytes begin with a bracket that opens an array. -/
def opensArray (data : Bytes) (s : Span) : Bool := data[s.offset]? == some '['.toUInt8

/-- Whether the bytes begin with a brace that opens an object. -/
def opensObject (data : Bytes) (s : Span) : Bool := data[s.offset]? == some '\x7b'.toUInt8

/-- **The value that the bytes are.** A container is its bytes; any other value is the token that
    starts there. -/
def value (data : Bytes) (s : Span) : Value :=
  if s.opensObject data then .object (s.text data)
  else if s.opensArray data then .array (s.text data)
  else
    match Token.lex s.offset (data.drop s.offset) with
    | .ok (token, _) => .ofToken token
    | .error _ => .invalid

end Span

end Sift
