import Sift.Unicode.Flag

/-!
# How single characters are shown and named

An error message shows the character it is about: as it is where it can be seen, and by a letter or
its number where it cannot. The names of groups in patterns consist of letters and digits of every
script. Both go by the edition of the standard after the one that the properties of patterns are
told from, so this module lists what that edition added.
-/

namespace Sift.Unicode

/-! ## 1. What the later edition added -/

/-- The characters added. All of them can be seen. -/
def added : CharSet :=
  .ofText (String.join
  ["88F C5C CDC 1ACF-1ADD 1AE0-1AEB 20C1 2B96 A7CE-A7CF A7D2 A7D4 A7F1 FBC3-FBD2 FD90-FD91 ",
   "FDC8-FDCE 10940-10959 10EC5-10EC7 10ED0-10ED8 10EFA-10EFB 11B60-11B67 11DB0-11DDB ",
   "11DE0-11DE9 16EA0-16EB8 16EBB-16ED3 16FF2-16FF6 187F8-187FF 18D09-18D1E 18D80-18DF2 ",
   "1CCFA-1CCFC 1CEBA-1CED0 1CEE0-1CEF0 1E6C0-1E6DE 1E6E0-1E6F5 1E6FE-1E6FF 1F6D8 ",
   "1F777-1F77A 1F8D0-1F8D8 1FA54-1FA57 1FA8A 1FA8E 1FAC8 1FACD 1FAEA 1FAEF 1FBFA ",
   "2B73A-2B73F 2CEA2-2CEAD 323B0-33479"])

/-- The alphabetic characters among them. -/
def addedAlphabetic : CharSet :=
  .ofText (String.join
  ["88F C5C CDC A7CE-A7CF A7D2 A7D4 A7F1 10940-10959 10EC5-10EC7 10EFA-10EFB 11B60-11B67 ",
   "11DB0-11DDB 16EA0-16EB8 16EBB-16ED3 16FF2-16FF6 187F8-187FF 18D09-18D1E 18D80-18DF2 ",
   "1E6C0-1E6DE 1E6E0-1E6F5 1E6FE-1E6FF 2B73A-2B73F 2CEA2-2CEAD 323B0-33479"])

/-- The numbers among them. -/
def addedNumbers : CharSet := .ofText "11DE0-11DE9 16FF4-16FF6"

/-- Those among them that continue the character before. -/
def addedJoining : CharSet :=
  .ofText "1ACF-1ADD 1AE0-1AEB 10EFA-10EFB 11B60 11B62-11B64 11B66 1E6E3 1E6E6 1E6EE-1E6EF 1E6F5"

/-! ## 2. Names -/

/-- Whether a character counts as a letter in names. -/
def isNameLetter (c : Char) : Bool :=
  let n := c.toNat
  CharSet.alphabetic.holds n || addedAlphabetic.holds n

/-- Whether a character counts as a number in names. -/
def isNameNumber (c : Char) : Bool :=
  match Category.of c with
  | .decimalNumber | .letterNumber | .otherNumber => true
  | _ => addedNumbers.holds c.toNat

/-! ## 3. What can be seen -/

/-- Whether a character is drawn as part of the one before it. -/
def isJoining (c : Char) : Bool :=
  let n := c.toNat
  CharSet.graphemeExtend.holds n || addedJoining.holds n

/-- Whether a character can be seen where it is printed. Of the spaces only the plain one can. -/
def isVisible (c : Char) : Bool :=
  match Category.of c with
  | .spaceSeparator => c == ' '
  | .lineSeparator | .paragraphSeparator | .control | .format | .surrogate | .privateUse => false
  | .unassigned => added.holds c.toNat
  | _ => true

/-- A character between single quotes. A quote, a backslash and three blanks have a letter;
    what cannot be seen by itself has its number. -/
def charText (c : Char) : String :=
  let inner : List Char :=
    if c.toNat = 0 then ['\\', '0']
    else match c with
    | '\t' => ['\\', 't']
    | '\n' => ['\\', 'n']
    | '\r' => ['\\', 'r']
    | '\'' => ['\\', '\'']
    | '\\' => ['\\', '\\']
    | c =>
      if isJoining c || !isVisible c then
        ['\\', 'u', '\x7b'] ++ Text.hex c.toNat ++ ['\x7d']
      else [c]
  String.ofList ('\'' :: inner ++ ['\''])

end Sift.Unicode
