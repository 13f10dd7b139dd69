import Sift.Pattern.Opening
import Std.Data.HashMap

/-!
# How large automata are

A pattern is accepted only if the automata for it are small enough: the one that reads a text from
its start and the one that reads it from its end. `Regex.fits` builds neither, it only counts the
states they would have and the bytes these take. Where looking for texts is the whole search, no
automaton is needed and there is nothing to count.

* A text has a state for each of its bytes, and a choice among texts a state for each of their
  beginnings.
* A set of characters beyond ASCII has the states of its byte sequences. Sequences share states
  through a table that is looked up by a hash and forgets what was in a place that it needs again.
  As the numbers of states enter the hash, what is shared depends on how many states came before.
* A repetition has as many copies of its body as its counts say.
-/

namespace Sift.Pattern

open Unicode (CharSet)

/-! ## 1. States and bytes -/

/-- The states of an automaton so far: how many, and how many bytes their lists of exits take. -/
structure Tally where
  states : Nat
  exits : Nat

namespace Tally

/-- The bytes that an automaton may take. -/
def greatest : Nat := 10 * 1024 * 1024

/-- The bytes of an automaton: 32 for each state, and the lists of exits. -/
def bytes (t : Tally) : Nat := 32 * t.states + t.exits

/-- Whether there is already more than there may be. -/
def isOver (t : Tally) : Bool := greatest < t.bytes

/-- States that have one exit, or none. -/
def plain (t : Tally) (count : Nat) : Tally := { t with states := t.states + count }

/-- A state with several exits that are tried one after the other. -/
def fork (t : Tally) (count : Nat) : Tally := ⟨t.states + 1, t.exits + 4 * count⟩

/-- A state with an exit for each of several ranges of bytes. -/
def switch (t : Tally) (count : Nat) : Tally := ⟨t.states + 1, t.exits + 8 * count⟩

/-- `f` again and again, `n` times or until there is too much. -/
def repeated (f : Tally → Tally) : (n : Nat) → Tally → Tally
  | 0, t => t
  | n + 1, t => if t.isOver then t else repeated f n (f t)

end Tally

/-! ## 2. Sharing states -/

/-- One more number taken into a hash. -/
def mixed (hash : UInt64) (n : Nat) : UInt64 := (hash ^^^ n.toUInt64) * 1099511628211

/-- The hash of some numbers. -/
def hashOf (ns : List Nat) : UInt64 := ns.foldl mixed 14695981039346656037

/-- A table of states by what they do, with `size` places. A new state drives out the one that had
    its place. -/
structure Shared where
  size : Nat
  places : Std.HashMap Nat (List Nat × Nat)

namespace Shared

/-- A table with nothing in it. -/
def empty (size : Nat) : Shared := ⟨size, {}⟩

/-- The place of a state with some numbers. -/
def place (s : Shared) (ns : List Nat) : Nat := (hashOf ns).toNat % s.size

/-- The state with some numbers, if it is in its place. -/
def find? (s : Shared) (ns : List Nat) : Option Nat :=
  match s.places[s.place ns]? with
  | some (found, state) => if found = ns then some state else none
  | none => none

/-- Puts a state in its place. -/
def put (s : Shared) (ns : List Nat) (state : Nat) : Shared :=
  { s with places := s.places.insert (s.place ns) (ns, state) }

end Shared

/-- A state with exits for ranges of bytes that is not yet complete: the ranges before the last, each
    with the state its exit leads to, last first, and the last range. -/
structure OpenState where
  done : List (ByteRange × Nat)
  last : ByteRange

/-- What is built of a set: the tally and the states to share. -/
structure Growth where
  tally : Tally
  shared : Shared

namespace Growth

/-- Completes the states along a sequence, the last first, and gives the number of the first. The
    last one leads to `target`. -/
def settle (target : Nat) (g : Growth) : List OpenState → Nat × Growth
  | [] => (target, g)
  | s :: rest =>
    let (next, g) := settle target g rest
    let exits := ((s.last, next) :: s.done).reverse
    let key := exits.flatMap fun ((a, b), next) => [a, b, next]
    match g.shared.find? key with
    | some state => (state, g)
    | none =>
      (g.tally.states,
        ⟨g.tally.switch exits.length, g.shared.put key g.tally.states⟩)

/-- Goes on with a sequence: what it begins with alike stays open, the rest is completed. -/
def extend (target : Nat) (g : Growth) : List ByteRange → List OpenState → List OpenState × Growth
  | r :: rest, s :: more =>
    if s.last = r then
      let (more, g) := extend target g rest more
      (s :: more, g)
    else
      let (next, g) := settle target g more
      (⟨(s.last, next) :: s.done, r⟩ :: rest.map (⟨[], ·⟩), g)
  | rest, _ => (rest.map (⟨[], ·⟩), g)

/-- One more byte range on the way backwards from a state: the number of the state before it. -/
def stepBack (g : Growth) (from_ : Nat) (r : ByteRange) : Nat × Growth :=
  let key := [from_, r.1, r.2]
  match g.shared.find? key with
  | some state => (state, g)
  | none => (g.tally.states, ⟨g.tally.plain 1, g.shared.put key g.tally.states⟩)

end Growth

namespace Tally

/-- The states of sequences of byte ranges in ascending order, to be read forwards: they are built
    from their ends, and the open ones are those of the last sequence. -/
def forwards (t : Tally) (sequences : List (List ByteRange)) : Tally :=
  let target := t.states
  let start : List OpenState × Growth := ([], ⟨t.plain 1, .empty 10000⟩)
  let (open_, g) := sequences.foldl (fun (open_, g) s => g.extend target s open_) start
  (g.settle target open_).2.tally

/-- The states of sequences of byte ranges to be read backwards: a fork leads to the last byte of
    each. -/
def backwards (t : Tally) (sequences : List (List ByteRange)) : Tally :=
  let target := t.states + 1
  let start : Growth := ⟨(t.fork sequences.length).plain 1, .empty 1000⟩
  (sequences.foldl (fun g s =>
    (s.foldl (fun (state, g) r => g.stepBack state r) (target, g)).2) start).tally

end Tally

/-! ## 3. Choices among texts -/

/-- The parts of a list between the elements for which `p`. There is always at least one. -/
def splitAt {α : Type} (p : α → Bool) : List α → List (List α)
  | [] => [[]]
  | a :: rest =>
    if p a then [] :: splitAt p rest
    else
      match splitAt p rest with
      | [] => [[a]]
      | part :: more => (a :: part) :: more

/-- The states of a tree of byte strings. A string that ends at the root of the tree parts those
    before it from those after it, so that the order of preference is kept. The fuel is more than
    the length of the strings. -/
def Tally.tree : (fuel : Nat) → List (List Nat) → Tally → Tally
  | 0, _, t => t
  | fuel + 1, strings, t =>
    if strings.all List.isEmpty then t
    else
      let stops := splitAt List.isEmpty (match strings with
        | [] :: rest => [] :: rest.dropWhile List.isEmpty
        | _ => strings)
      let levels := stops.filter fun part => !part.isEmpty
      let t := levels.foldl (fun t part =>
        let firsts := (part.filterMap List.head?).eraseDups
        let t := firsts.foldl (fun t b =>
          t.tree fuel ((part.filter (·.head? == some b)).map List.tail)) t
        if firsts.length = 1 then t.plain 1 else t.switch firsts.length) t
      t.fork (levels.length + stops.length - 1)

/-! ## 4. Expressions -/

/-- Which way an automaton reads. -/
inductive Direction
  | forward | backward
  deriving DecidableEq

/-- What an expression takes in an automaton, with the sequences of its sets. -/
inductive Demand
  /-- The same wherever it is. -/
  | fixed (t : Tally)
  /-- The states of a set. -/
  | set (d : Direction) (sequences : List (List ByteRange))
  | all (ds : List Demand)
  | any (ds : List Demand)
  /-- Copies of a body. `proper` is set where the body matches no empty text. -/
  | times (d : Demand) (least : Nat) (most : Option Nat) (proper : Bool)
  /-- A part between two states that mark it. -/
  | marked (d : Demand)

/-- What a set takes. -/
def demandOfSet (d : Direction) (s : CharSet) : Demand :=
  if s.isAscii then .fixed (((⟨0, 0⟩ : Tally).plain 1).switch s.ranges.length)
  else .set d (Encoded.ofSet s)

mutual

/-- What an expression takes in an automaton of direction `d`. -/
def Regex.demand (d : Direction) : Regex → Demand
  | .empty | .look _ => .fixed ⟨1, 0⟩
  | .text cs => .fixed ⟨(Encoded.ofText cs).length, 0⟩
  | .set s => demandOfSet d s
  | .concat rs =>
    let ds := demands d rs
    .all (match d with
      | .forward => ds
      | .backward => ds.reverse)
  | .alternate rs =>
    match textsOf? rs with
    | some strings =>
      let strings := match d with
        | .forward => strings
        | .backward => strings.map List.reverse
      let longest := strings.foldl (fun n s => max n s.length) 0
      .fixed ((⟨1, 0⟩ : Tally).tree (longest + 1) strings)
    | none => .any (demands d rs)
  | .times r least most _ => .times (r.demand d) least most (match r.shortest with
      | some n => 0 < n
      | none => false)
  | .group _ r =>
    match d with
    | .forward => .marked (r.demand d)
    | .backward => r.demand d

/-- The same for several. -/
def demands (d : Direction) : List Regex → List Demand
  | [] => []
  | r :: rest => r.demand d :: demands d rest

end

mutual

/-- The automaton with what an expression takes. -/
def Tally.with_ (t : Tally) : Demand → Tally
  | .fixed more => ⟨t.states + more.states, t.exits + more.exits⟩
  | .set .forward sequences => t.forwards sequences
  | .set .backward sequences => t.backwards sequences
  | .all ds => t.withAll ds
  | .any ds => t.withAny ds
  | .marked d => ((t.plain 1).with_ d).plain 1
  | .times d least most proper =>
    let copy (t : Tally) : Tally := t.with_ d
    let copies (n : Nat) (t : Tally) : Tally := if n = 0 then t.plain 1 else t.repeated copy n
    match least, most with
    | 0, some 1 => (copy (t.fork 2)).plain 1
    | 0, none => if proper then copy (t.fork 2) else ((copy t).fork 2 |>.fork 2).plain 1
    | least, none => (copies least t).fork 2
    | least, some most =>
      if most = least then copies least t
      else ((copies least t).plain 1).repeated (fun t => copy (t.fork 2)) (most - least)

/-- The same for all of several. -/
def Tally.withAll (t : Tally) : List Demand → Tally
  | [] => t
  | d :: rest => (t.with_ d).withAll rest

/-- The same for any of several: a fork to each, after the first two of them, and a state where they
    meet. -/
def Tally.withAny (t : Tally) : List Demand → Tally
  | first :: second :: rest =>
    (((t.with_ first).with_ second).fork (rest.length + 2) |>.plain 1).withAll rest
  | [d] => t.with_ d
  | [] => t.plain 1

end

/-- The automaton for an expression. It may begin anywhere in a text, unless every match begins where
    reading does. What is read forwards has its own start and end marked too. -/
def Regex.tally (d : Direction) (r : Regex) : Tally :=
  let none_ : Tally := ⟨0, 0⟩
  let anywhere := ((none_.fork 2).plain 1).switch 1
  match d with
  | .forward =>
    let t := if r.beginsWith .textStart then none_.plain 1 else anywhere
    (t.with_ (.marked (r.demand d))).plain 1
  | .backward =>
    let t := if r.endsWith .textEnd then none_.plain 1 else anywhere
    (t.with_ (r.demand d)).plain 1

/-- Whether the automata for an expression are small enough, or none is needed. -/
def Regex.fits (r : Regex) : Bool :=
  (!(r.tally .forward).isOver && !(r.tally .backward).isOver) || r.isLookup

end Sift.Pattern
