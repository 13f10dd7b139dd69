import Sift.Pattern.Regex
import Sift.Pattern.Encoded

/-!
# What matches begin with

Before a text is searched for a pattern, one may look for the bytes that matches begin with. Where
few texts are all the matches there are, that look is the whole search, and no automaton is needed.

* an `Opening` is what a match may begin with, and whether it is the whole match;
* `Openings` are those of an expression, the preferred ones first, unless there are too many;
* `Regex.openings` finds them, and `Regex.isLookup` tells whether they are enough for a search.

A pattern for which they are enough is accepted however large an automaton for it would be.
-/

namespace Sift.Pattern

open Unicode (CharSet)

/-! ## 1. Openings -/

/-- The bytes that a match may begin with. -/
structure Opening where
  bytes : List Nat
  /-- Whether nothing follows them in the match. -/
  whole : Bool

namespace Opening

/-- The opening of an empty match. -/
def nothing : Opening := ⟨[], true⟩

/-- At most `n` bytes of an opening. -/
def keep (n : Nat) (o : Opening) : Opening :=
  if n < o.bytes.length then ⟨o.bytes.take n, false⟩ else o

/-- An opening with another one after it, if it was whole. -/
def followedBy (o next : Opening) : Opening := ⟨o.bytes ++ next.bytes, next.whole⟩

/-- Neighbours with the same bytes made one. -/
def merged : List Opening → List Opening
  | [] => []
  | o :: rest =>
    match merged rest with
    | next :: more =>
      if o.bytes = next.bytes then ⟨o.bytes, o.whole && next.whole⟩ :: more else o :: next :: more
    | [] => [o]

/-- Without the openings that another one before them begins. -/
def preferred (os : List Opening) : List Opening :=
  (os.foldl (fun kept o =>
    if kept.any (·.bytes.isPrefixOf o.bytes) then kept else o :: kept) []).reverse

end Opening

/-- The openings of an expression, or `none` where they are too many to list. -/
abbrev Openings := Option (List Opening)

namespace Openings

/-- The most openings that are kept. -/
def most : Nat := 250

/-- The longest opening that is kept. -/
def longest : Nat := 100

/-- The most members of a set, and the most copies in a repetition, of which all are kept. -/
def mostCopies : Nat := 10

/-- The openings of what only matches the empty text. -/
def nothing : Openings := some [.nothing]

/-- At most `n` bytes of every opening. -/
def keep (n : Nat) (os : Openings) : Openings := os.map (·.map (·.keep n))

/-- The openings, with more to follow. -/
def inPart (os : Openings) : Openings := os.map (·.map fun o => { o with whole := false })

/-- Whether none of the openings is whole, so that nothing which follows could change them. -/
def isInPart : Openings → Bool
  | some os => os.all (!·.whole)
  | none => true

/-- The openings of a choice between two expressions. Long ones are cut where there are too many. -/
def union (a b : Openings) : Openings :=
  match a, b with
  | some xs, some ys =>
    if xs.length + ys.length ≤ most then some (Opening.merged (xs ++ ys))
    else
      let xs := Opening.merged (xs.map (·.keep 4))
      let ys := Opening.merged (ys.map (·.keep 4))
      if xs.length + ys.length ≤ most then some (Opening.merged (xs ++ ys)) else none
  | _, _ => none

/-- Openings that anything may follow. -/
def followedByAny (os : List Opening) : Openings :=
  if os.any (·.bytes.isEmpty) then none else inPart (some os)

/-- Openings that others follow. -/
def followedBy (xs ys : List Opening) : Openings :=
  some (Opening.merged (xs.flatMap fun x => if x.whole then ys.map x.followedBy else [x]))

/-- The openings of an expression that is followed by another one. -/
def cross (a b : Openings) : Openings :=
  match a, b with
  | some xs, some ys =>
    keep longest (if xs.length * ys.length ≤ most then followedBy xs ys else followedByAny xs)
  | some xs, none => followedByAny xs
  | none, _ => none

/-- The openings of `n` copies, one after the other, after `before`. -/
def copies (os : Openings) : (n : Nat) → (before : Openings) → Openings
  | 0, before => before
  | n + 1, before => if before.isInPart then before else copies os n (before.cross os)

/-- The openings of a set. -/
def ofSet (s : CharSet) : Openings :=
  if s.ranges.foldl (fun n (a, b) => n + (b - a + 1)) 0 ≤ mostCopies then
    some (s.ranges.flatMap fun (a, b) =>
      (List.range' a (b - a + 1)).map fun n => ⟨Encoded.ofText [Char.ofNat n], true⟩)
  else none

end Openings

/-! ## 2. Openings of expressions -/

mutual

/-- What the matches of an expression begin with. Conditions are taken to hold. -/
def Regex.openings : Regex → Openings
  | .empty | .look _ => .nothing
  | .text cs => Openings.keep Openings.longest (some [⟨Encoded.ofText cs, true⟩])
  | .set s => .ofSet s
  | .concat rs => openingsOfAll .nothing rs
  | .alternate rs => openingsOfAny (some []) rs
  | .times r least most greedy =>
    let os := r.openings
    if least = 0 then
      let os := if most = some 1 then os else os.inPart
      if greedy then os.union .nothing else Openings.nothing.union os
    else
      let all := os.copies (min least Openings.mostCopies) .nothing
      if most = some least ∧ least ≤ Openings.mostCopies then all else all.inPart
  | .group _ r => r.openings

/-- The same for several, one after the other, after `before`. -/
def openingsOfAll (before : Openings) : List Regex → Openings
  | [] => before
  | r :: rest =>
    if before.isInPart then before else openingsOfAll (before.cross r.openings) rest

/-- The same for one of several, or what is preferred to them. -/
def openingsOfAny (before : Openings) : List Regex → Openings
  | [] => before
  | r :: rest =>
    match before with
    | none => none
    | some os => openingsOfAny (Openings.union (some os) r.openings) rest

end

mutual

/-- Whether an expression has no condition and no numbered part. -/
def Regex.isBare : Regex → Bool
  | .empty | .text _ | .set _ => true
  | .look _ | .group _ _ => false
  | .concat rs | .alternate rs => areBare rs
  | .times r _ _ _ => r.isBare

/-- The same for all of several. -/
def areBare : List Regex → Bool
  | [] => true
  | r :: rest => r.isBare && areBare rest

end

/-! ## 3. When openings are enough -/

namespace Opening

/-- The bytes that are common in texts: most small letters, some digits and marks, and all that
    characters beyond ASCII begin with. -/
def isCommon (b : Nat) : Bool :=
  0x80 ≤ b || (Encoded.ofText "\n\r (),-./0129:_abcdefghilmnoprstuvxy|".toList).contains b

/-- What two lists of bytes begin with alike. -/
def commonStart : List Nat → List Nat → List Nat
  | a :: as, b :: bs => if a = b then a :: commonStart as bs else []
  | _, _ => []

/-- Cuts openings again and again, each time to a number of bytes, as long as there are more of them
    than a number says. -/
def shortened : List (Nat × Nat) → List Opening → List Opening
  | [], os => os
  | (n, most) :: more, os =>
    if os.length ≤ most then os else shortened more (preferred (os.map (·.keep n)))

/-- Whether a look for openings is a whole search. All have to be whole matches, and none empty. It
    is not if it pays to look for less: for the first byte alone, where all begin with the same rare
    one, or for what all have in common, or for the first few bytes where they are many. -/
def areEnough (found : List Opening) : Bool :=
  match preferred found with
  | [] => false
  | first :: rest =>
    let os := first :: rest
    let start := rest.foldl (fun start o => commonStart start o.bytes) first.bytes
    let isRare := start.take 1 |>.all (!isCommon ·)
    if found.any (·.bytes.isEmpty) || os.any (!·.whole) then false
    else if 1 < found.length ∧ 1 ≤ start.length ∧ start.length ≤ 3 ∧ isRare then
      rest.isEmpty && start.length == 1
    else if 4 < start.length ∨ (1 < start.length ∧ 16 < os.length) then rest.isEmpty
    else
      let short := shortened [(5, 10), (4, 10), (3, 64), (2, 64), (1, 10)] os
      short.all (·.whole) || short.any (·.bytes.length ≤ 2) || 64 < short.length

end Opening

/-- The texts of several expressions, if all are texts. -/
def textsOf? (rs : List Regex) : Option (List (List Nat)) :=
  rs.mapM fun
    | .text cs => some (Encoded.ofText cs)
    | _ => none

/-- Whether a search for an expression looks for texts only: for its openings, or for those of a
    choice among very many. -/
def Regex.isLookup (r : Regex) : Bool :=
  (r.isBare && (r.openings.map Opening.areEnough).getD false) ||
    match r with
    | .alternate rs => decide (3000 ≤ rs.length) && (textsOf? rs).isSome
    | _ => false

end Sift.Pattern
