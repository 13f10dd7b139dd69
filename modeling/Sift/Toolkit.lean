import Sift.Pattern
import Sift.Decimal
import Sift.Json.Codec

/-!
# Toolkits

What a filter takes from elsewhere: a language of patterns, a way from doubles to decimals, and a
way to read and write JSON. All that is said of filters is said for any toolkit. Where something is
relied on of one, it is a hypothesis (`Decimals.Lawful`, `Json.Codec.Lawful`).
-/

namespace Sift

/-- What a filter takes from elsewhere. -/
structure Toolkit where
  patterns : Patterns
  decimals : Decimals
  json : Json.Codec

end Sift
