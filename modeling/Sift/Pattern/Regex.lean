import Sift.Unicode.Folding
import Sift.Pattern.Class

/-!
# Regular expressions

The expressions that patterns write. They are built by `ofSet`, `sequence`, `choice` and
`repeated`, which keep them in a simple form with the same matches:

* a sequence holds no sequence, nothing empty and no two texts side by side;
* a choice holds no choice, and one among single characters, or among sets, is a set;
* what all parts of a choice begin with stands before it;
* what matches the empty text alone is not repeated.

How large an automaton for an expression is depends on this form, and so does whether the pattern
is accepted.
-/

namespace Sift.Pattern

open Unicode (CharSet)

/-! ## 1. Expressions -/

/-- A condition on a position. -/
inductive Look
  | textStart | textEnd | lineStart | lineEnd
  /-- The same for lines that may end with carriage return and line feed. -/
  | anyLineStart | anyLineEnd
  /-- Words begin or end here, or neither. -/
  | boundary (unicode : Bool) | noBoundary (unicode : Bool)
  | wordStart (unicode : Bool) | wordEnd (unicode : Bool)
  /-- Half of a word's start or end: the character before, or after, is of no word. -/
  | halfStart (unicode : Bool) | halfEnd (unicode : Bool)
  deriving DecidableEq

/-- A regular expression. -/
inductive Regex
  | empty
  /-- Some characters, one after the other. -/
  | text (cs : List Char)
  /-- Any one character of a set. -/
  | set (s : CharSet)
  | look (l : Look)
  | concat (rs : List Regex)
  | alternate (rs : List Regex)
  /-- At least `least` times, and at most `most` times where that is given. `greedy` prefers many
      times to few, which does not matter to whether there is a match. -/
  | times (r : Regex) (least : Nat) (most : Option Nat) (greedy : Bool)
  /-- A part with a number of its own. -/
  | group (number : Nat) (r : Regex)

namespace Regex

/-! ## 2. What an expression is like -/

mutual

/-- Whether two expressions are written the same. -/
def same : Regex → Regex → Bool
  | .empty, .empty => true
  | .text a, .text b => a == b
  | .set a, .set b => a == b
  | .look a, .look b => a == b
  | .concat a, .concat b => sameAll a b
  | .alternate a, .alternate b => sameAll a b
  | .times a least most greedy, .times b least' most' greedy' =>
    least == least' && most == most' && greedy == greedy' && same a b
  | .group n a, .group m b => n == m && same a b
  | _, _ => false

/-- The same for lists. -/
def sameAll : List Regex → List Regex → Bool
  | [], [] => true
  | a :: as, b :: bs => same a b && sameAll as bs
  | _, _ => false

end

mutual

/-- Whether only the empty text can match. -/
def isEmptyOnly : Regex → Bool
  | .empty | .look _ => true
  | .text _ | .set _ => false
  | .concat rs | .alternate rs => areEmptyOnly rs
  | .times r _ _ _ | .group _ r => r.isEmptyOnly

/-- The same for all of several. -/
def areEmptyOnly : List Regex → Bool
  | [] => true
  | r :: rest => r.isEmptyOnly && areEmptyOnly rest

end

/-- The sum of two lengths, if there are both. -/
def plus? (a b : Option Nat) : Option Nat :=
  match a, b with
  | some a, some b => some (a + b)
  | _, _ => none

/-- The lesser of two lengths, if there are both. -/
def lesser? (a b : Option Nat) : Option Nat :=
  match a, b with
  | some a, some b => some (min a b)
  | _, _ => none

mutual

/-- A length that no match is shorter than, unless there is a part that never matches. -/
def shortest : Regex → Option Nat
  | .empty | .look _ => some 0
  | .text cs => some cs.length
  | .set s => if s.edges.isEmpty then none else some 1
  | .concat rs => shortestOfAll rs
  | .alternate [] => none
  | .alternate (r :: rest) => shortestOfAny r.shortest rest
  | .times r least _ _ => r.shortest.map (· * least)
  | .group _ r => r.shortest

/-- The same for several, one after the other. -/
def shortestOfAll : List Regex → Option Nat
  | [] => some 0
  | r :: rest => plus? r.shortest (shortestOfAll rest)

/-- The same for one of several, the least so far being `best`. -/
def shortestOfAny (best : Option Nat) : List Regex → Option Nat
  | [] => best
  | r :: rest => shortestOfAny (lesser? best r.shortest) rest

end

mutual

/-- Whether every match begins where the condition `l` holds, as far as the form shows it. -/
def beginsWith (l : Look) : Regex → Bool
  | .empty | .text _ | .set _ => false
  | .look l' => l' == l
  | .concat rs => sequenceBeginsWith l rs
  | .alternate rs => allBeginWith l rs
  | .times r least _ _ => 0 < least && r.beginsWith l
  | .group _ r => r.beginsWith l

/-- The same for a sequence: its first part that can match more than the empty text is the last to
    look at. -/
def sequenceBeginsWith (l : Look) : List Regex → Bool
  | [] => false
  | r :: rest => r.beginsWith l || r.isEmptyOnly && sequenceBeginsWith l rest

/-- The same for all of several. -/
def allBeginWith (l : Look) : List Regex → Bool
  | [] => true
  | r :: rest => r.beginsWith l && allBeginWith l rest

end

mutual

/-- Whether every match ends where the condition `l` holds, as far as the form shows it. -/
def endsWith (l : Look) : Regex → Bool
  | .empty | .text _ | .set _ => false
  | .look l' => l' == l
  | .concat rs => sequenceEndsWith l rs
  | .alternate rs => allEndWith l rs
  | .times r least _ _ => 0 < least && r.endsWith l
  | .group _ r => r.endsWith l

/-- The same for a sequence: its last part that can match more than the empty text is the first to
    look at. -/
def sequenceEndsWith (l : Look) : List Regex → Bool
  | [] => false
  | r :: rest => areEmptyOnly rest && r.endsWith l || sequenceEndsWith l rest

/-- The same for all of several. -/
def allEndWith (l : Look) : List Regex → Bool
  | [] => true
  | r :: rest => r.endsWith l && allEndWith l rest

end

/-! ## 3. Building expressions -/

/-- Any one character of a set. -/
def ofSet (s : CharSet) : Regex :=
  match s.single? with
  | some n => .text [Char.ofNat n]
  | none => .set s

/-- Neighbouring texts of a list made one. -/
def joinTexts : List Regex → List Regex
  | [] => []
  | .text cs :: rest =>
    match joinTexts rest with
    | .text more :: rest => .text (cs ++ more) :: rest
    | rest => .text cs :: rest
  | r :: rest => r :: joinTexts rest

/-- The parts that an expression gives to a sequence. -/
def parts : Regex → List Regex
  | .empty => []
  | .concat rs => rs
  | r => [r]

/-- Several expressions, one after the other. -/
def sequence (rs : List Regex) : Regex :=
  match joinTexts (rs.flatMap parts) with
  | [] => .empty
  | [r] => r
  | rs => .concat rs

/-- The parts that an expression gives to a choice. -/
def alternatives : Regex → List Regex
  | .alternate rs => rs
  | r => [r]

/-- The set that an expression is, if it is one. -/
def asSet? : Regex → Option CharSet
  | .set s => some s
  | _ => none

/-- The character that an expression is, if it is one. -/
def asChar? : Regex → Option Char
  | .text [c] => some c
  | _ => none

/-- What a choice is where it is none: a set, or the only alternative. -/
def collapsed? (rs : List Regex) : Option Regex :=
  match rs with
  | [] => some (.set .empty)
  | [r] => some r
  | rs =>
    match rs.mapM asChar?, rs.mapM asSet? with
    | some cs, _ => some (ofSet (.ofList (cs.map Char.toNat)))
    | none, some ss => some (ofSet (.unionAll ss))
    | none, none => none

/-- What two lists begin with alike. -/
def commonStart : List Regex → List Regex → List Regex
  | a :: as, b :: bs => if a.same b then a :: commonStart as bs else []
  | _, _ => []

/-- The parts of a sequence, if the expression is one. -/
def asSequence? : Regex → Option (List Regex)
  | .concat rs => some rs
  | _ => none

/-- Any of several expressions. -/
def choice (rs : List Regex) : Regex :=
  let rs := rs.flatMap alternatives
  (collapsed? rs).getD <|
    match rs.mapM asSequence? with
    | some (first :: rest) =>
      let start := rest.foldl commonStart first
      if start.isEmpty then .alternate rs
      else
        let ends := ((first :: rest).map fun r => sequence (r.drop start.length)).flatMap
          alternatives
        sequence (start ++ [(collapsed? ends).getD (.alternate ends)])
    | _ => .alternate rs

/-- An expression over and over. -/
def repeated (r : Regex) (least : Nat) (most : Option Nat) (greedy : Bool) : Regex :=
  let (least, most) := if r.isEmptyOnly then (min least 1, some (min (most.getD 1) 1)) else (least, most)
  if most = some 0 then .empty
  else if least = 1 ∧ most = some 1 then r
  else .times r least most greedy

end Regex

end Sift.Pattern
