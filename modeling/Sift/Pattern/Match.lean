import Sift.Pattern.Regex

/-!
# What regular expressions match

A regular expression is read as a function on sets of positions of a text: from the positions
where a match may begin to those where it may end. Whether a text has a match is then whether
anything is reached from all of its positions.

A set of positions is a natural number, position `i` being in it when bit `i` is set. Two steps
lead from an expression to its function:

* `Regex.moves` asks of the text once what sets and conditions say at each of its positions;
* `Moves.image` then only shifts and joins bits: a set moves the positions in front of its
  characters on by one, a condition keeps those where it holds, and a repetition goes on until
  nothing new is reached.
-/

namespace Sift.Pattern

open Unicode (CharSet)

/-! ## 1. Positions -/

/-- The set of the positions `i` below `count` for which `p i`. -/
def positions (count : Nat) (p : Nat → Bool) : Nat :=
  (List.range count).foldr (fun i set => set <<< 1 ||| (p i).toNat) 0

/-- A text as its code points, for access by position. -/
abbrev Subject := Array Nat

namespace Subject

/-- Whether the character before position `i`, if there is one, is in a set. -/
def before (t : Subject) (s : CharSet) (i : Nat) : Bool :=
  0 < i && ((t[i - 1]?).map s.holds).getD false

/-- Whether the character after position `i`, if there is one, is in a set. -/
def after (t : Subject) (s : CharSet) (i : Nat) : Bool := ((t[i]?).map s.holds).getD false

/-- Whether a condition holds at position `i`. -/
def satisfies (t : Subject) (l : Look) (i : Nat) : Bool :=
  let return_ := CharSet.single '\r'
  let feed := CharSet.single '\n'
  let atStart := i == 0
  let atEnd := i == t.size
  let left (unicode : Bool) := t.before (Class.words unicode) i
  let right (unicode : Bool) := t.after (Class.words unicode) i
  match l with
  | .textStart => atStart
  | .textEnd => atEnd
  | .lineStart => atStart || t.before feed i
  | .lineEnd => atEnd || t.after feed i
  | .anyLineStart => atStart || t.before feed i || t.before return_ i && !t.after feed i
  | .anyLineEnd => atEnd || t.after return_ i || t.after feed i && !t.before return_ i
  | .boundary u => left u != right u
  | .noBoundary u => left u == right u
  | .wordStart u => !left u && right u
  | .wordEnd u => left u && !right u
  | .halfStart u => !left u
  | .halfEnd u => !right u

end Subject

/-! ## 2. Moves -/

/-- An expression for one text: what it asks of the text is answered by sets of positions. -/
inductive Moves
  /-- On by one from each of the positions. -/
  | on (positions : Nat)
  /-- Nowhere, but only from the positions. -/
  | keep (positions : Nat)
  | all (ms : List Moves)
  | any (ms : List Moves)
  | times (m : Moves) (least : Nat) (most : Option Nat)

mutual

/-- The moves of an expression in a text. -/
def Regex.moves (t : Subject) : Regex → Moves
  | .empty => .all []
  | .text cs => .all (cs.map fun c => .on (positions t.size fun i => t[i]? == some c.toNat))
  | .set s => .on (positions t.size (t.after s))
  | .look l => .keep (positions (t.size + 1) (t.satisfies l))
  | .concat rs => .all (movesOfAll t rs)
  | .alternate rs => .any (movesOfAll t rs)
  | .times r least most _ => .times (r.moves t) least most
  | .group _ r => r.moves t

/-- The moves of several expressions. -/
def movesOfAll (t : Subject) : List Regex → List Moves
  | [] => []
  | r :: rest => r.moves t :: movesOfAll t rest

end

/-- `f` again and again, `n` times or until nothing changes. -/
def iterate (f : Nat → Nat) : (n : Nat) → Nat → Nat
  | 0, set => set
  | n + 1, set =>
    let next := f set
    if next = set then set else iterate f n next

mutual

/-- The positions that moves lead to from those in `set`. -/
def Moves.image (size : Nat) : Moves → (set : Nat) → Nat
  | .on ps, set => (set &&& ps) <<< 1
  | .keep ps, set => set &&& ps
  | .all ms, set => imageAll size ms set
  | .any ms, set => imageAny size ms set
  | .times m least most, set =>
    let first := iterate (m.image size) least set
    let more := match most with
      | some most => most - least
      | none => size + 1
    iterate (fun s => s ||| m.image size s) more first

/-- Where all of several lead, one after the other. -/
def imageAll (size : Nat) : List Moves → (set : Nat) → Nat
  | [], set => set
  | m :: rest, set => imageAll size rest (m.image size set)

/-- Where any of several leads. -/
def imageAny (size : Nat) : List Moves → (set : Nat) → Nat
  | [], _ => 0
  | m :: rest, set => m.image size set ||| imageAny size rest set

end

/-- **Whether a text has a match in it.** -/
def Regex.matchesIn (r : Regex) (text : List Char) : Bool :=
  let t : Subject := (text.map Char.toNat).toArray
  (r.moves t).image t.size (Nat.pow 2 (t.size + 1) - 1) != 0

end Sift.Pattern
