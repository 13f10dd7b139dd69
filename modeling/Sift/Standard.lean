import Sift.Toolkit
import Sift.Pattern.Reader
import Sift.Double.Fixed
import Sift.Json.Text
import Sift.Json.Reading

/-!
# The standard toolkit

Regular expressions over Unicode, decimals of 28 places, and JSON with numbers of 64 bits: what the
program works with.
-/

namespace Sift

/-- Regular expressions. -/
def Patterns.standard : Patterns where
  ofString? s := (Pattern.read? s.toList).map fun r => ⟨s, r.matchesIn⟩

/-- Decimals of at most 28 places, with digits below `2^96`. -/
def Decimals.standard : Decimals where
  ofFloat? := Double.Fixed.ofFloat?

/-- Compact text, and a reader that takes every text of JSON. -/
def Json.Codec.standard : Json.Codec where
  text := Json.text
  form? := Source.ofBytes?
  string? := Source.text?
  number? := JsonNumber.ofText?
  value? := Source.json?
  room := mostContainers

/-- What the program works with. -/
def Toolkit.standard : Toolkit := ⟨.standard, .standard, .standard⟩

end Sift
