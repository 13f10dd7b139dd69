import Sift.Token.Lexer

/-!
# All tokens of a text

`Token.stream` reads token after token. A stream that ends with the token `finish` is a whole
text; one that does not stops before the first thing that is no token.
-/

namespace Sift.Token

/-- The tokens of `bytes`, which begin at `offset`, up to and with the end, or up to the first
    error. -/
def stream (offset : Nat) (bytes : Bytes) : List Token :=
  match _read : lex offset bytes with
  | .error _ => []
  | .ok (token, rest) =>
    if _more : token.kind = .finish then [token] else token :: stream token.stop rest
termination_by bytes.length
decreasing_by exact lex_length _more _read

end Sift.Token
