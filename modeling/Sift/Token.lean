import Sift.Unicode.Shown
import Sift.Text.Utf8

/-!
# Tokens

The lexemes of a document, as they are met: a kind, where it starts, and the bytes themselves.
Nothing is decoded here; a string keeps its quotes and its escapes.

`LexError` lists what can keep a lexeme from being read, each with the offset it is reported at.
-/

namespace Sift

/-! ## 1. Kinds -/

/-- The kind of a token. -/
inductive TokenKind
  | objectStart | objectEnd | arrayStart | arrayEnd
  /-- The colon between a key and its value. -/
  | keyDelim
  /-- The comma between members or elements. -/
  | listDelim
  /-- A string without escapes, so its body can be used as it is. -/
  | string
  /-- A string with at least one escape. -/
  | escString
  /-- A number with neither fraction nor exponent. -/
  | integer
  /-- A number with a fraction, an exponent, or both. -/
  | number
  | null | true | false
  /-- The end of the document. -/
  | finish
  deriving DecidableEq, Repr

namespace TokenKind

/-- The name of a kind in messages. -/
def name : TokenKind → String
  | .objectStart => "ObjectStart"
  | .objectEnd => "ObjectEnd"
  | .arrayStart => "ArrayStart"
  | .arrayEnd => "ArrayEnd"
  | .keyDelim => "KeyDelim"
  | .listDelim => "ListDelim"
  | .string => "String"
  | .escString => "EscString"
  | .integer => "Integer"
  | .number => "Number"
  | .null => "Null"
  | .true => "True"
  | .false => "False"
  | .finish => "End"

/-- Whether a token of this kind is a complete value by itself. -/
def isScalar : TokenKind → Bool
  | .string | .escString | .integer | .number | .null | .true | .false => Bool.true
  | _ => Bool.false

/-- Whether a token of this kind is a string, and so can be a key. -/
def isString : TokenKind → Bool
  | .string | .escString => Bool.true
  | _ => Bool.false

/-- Whether a token of this kind opens a container. -/
def opens : TokenKind → Bool
  | .objectStart | .arrayStart => Bool.true
  | _ => Bool.false

/-- Whether a token of this kind closes a container. -/
def closes : TokenKind → Bool
  | .objectEnd | .arrayEnd => Bool.true
  | _ => Bool.false

end TokenKind

/-! ## 2. Tokens -/

/-- A lexeme of a document: what it is, where it starts, and its bytes. -/
structure Token where
  kind : TokenKind
  offset : Nat
  text : Bytes
  deriving DecidableEq, Repr

namespace Token

/-- The offset one past the last byte. -/
def stop (t : Token) : Nat := t.offset + t.text.length

/-- The bytes between the quotes of a string; of any other token, all of them. -/
def body (t : Token) : Bytes := if t.kind.isString then (t.text.drop 1).dropLast else t.text

end Token

/-! ## 3. Errors -/

/-- Why no token can be read. Every cause has the offset it is reported at. -/
inductive LexError
  | unexpectedChar (offset : Nat) (found : Char)
  | unterminatedString (offset : Nat)
  | badEscape (offset : Nat)
  | controlChar (offset : Nat)
  | malformedNumber (offset : Nat)
  | malformedLiteral (offset : Nat)
  | unexpectedEnd (offset : Nat)
  deriving DecidableEq, Repr

namespace LexError

/-- What an error says. -/
def message : LexError → String
  | .unexpectedChar offset found =>
    s!"unexpected character {Unicode.charText found} at offset {offset}"
  | .unterminatedString offset => s!"unterminated string starting at offset {offset}"
  | .badEscape offset => s!"invalid escape sequence at offset {offset}"
  | .controlChar offset => s!"control character in string at offset {offset}"
  | .malformedNumber offset => s!"malformed number at offset {offset}"
  | .malformedLiteral offset => s!"malformed literal at offset {offset}"
  | .unexpectedEnd offset => s!"unexpected end of input at offset {offset}"

end LexError

end Sift
