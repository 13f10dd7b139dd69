/-!
# Patterns

A pattern is known by its text and by the texts that have a match of it. Which texts write a
pattern, and what the pattern matches, is told by some `Patterns`, and nothing here depends on how
they do it.
-/

namespace Sift

/-- A pattern that has been read. -/
structure Pattern where
  text : String
  /-- Whether a text has a match of the pattern in it. -/
  matchesIn : List Char → Bool

/-- A language of patterns. -/
structure Patterns where
  /-- The pattern that a text writes, if it is one. -/
  ofString? : String → Option Pattern

end Sift
