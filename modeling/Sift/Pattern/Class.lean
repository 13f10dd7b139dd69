import Sift.Unicode.Flag

/-!
# Classes of characters with a name of their own

The classes that an escape of one letter stands for, in Unicode or in ASCII alone, and the classes
of ASCII that a class in brackets may name.
-/

namespace Sift.Pattern.Class

open Unicode (CharSet)

/-- The decimal digits. -/
def digits (unicode : Bool) : CharSet :=
  if unicode then .of .decimalNumber else .range 0x30 0x39

/-- The blanks. -/
def blanks (unicode : Bool) : CharSet :=
  if unicode then .whiteSpace else .ofRanges [(0x09, 0x0D), (0x20, 0x20)]

/-- The characters of words. -/
def words (unicode : Bool) : CharSet :=
  if unicode then .wordCharacter
  else .ofRanges [(0x30, 0x39), (0x41, 0x5A), (0x5F, 0x5F), (0x61, 0x7A)]

/-- The classes of ASCII that have a name. -/
def ofAsciiName? (name : String) : Option CharSet :=
  let upper := (0x41, 0x5A)
  let lower := (0x61, 0x7A)
  let digit := (0x30, 0x39)
  (match name with
  | "alnum" => some [digit, upper, lower]
  | "alpha" => some [upper, lower]
  | "ascii" => some [(0x00, 0x7F)]
  | "blank" => some [(0x09, 0x09), (0x20, 0x20)]
  | "cntrl" => some [(0x00, 0x1F), (0x7F, 0x7F)]
  | "digit" => some [digit]
  | "graph" => some [(0x21, 0x7E)]
  | "lower" => some [lower]
  | "print" => some [(0x20, 0x7E)]
  | "punct" => some [(0x21, 0x2F), (0x3A, 0x40), (0x5B, 0x60), (0x7B, 0x7E)]
  | "space" => some [(0x09, 0x0D), (0x20, 0x20)]
  | "upper" => some [upper]
  | "word" => some [digit, upper, (0x5F, 0x5F), lower]
  | "xdigit" => some [digit, (0x41, 0x46), (0x61, 0x66)]
  | _ => none).map CharSet.ofRanges

end Sift.Pattern.Class
