import Sift.Pattern.Bracket
import Sift.Pattern.Match
import Sift.Pattern.Size
import Sift.Unicode.Shown

/-!
# Reading a pattern

A pattern is read from left to right, with the groups still open on a stack of `Level`s. A level
holds the alternatives already complete and the items of the one being read; an operator of
repetition takes the last item. Flags set in a group hold until it closes.

Every part is read together with how deep it goes: groups, repetitions, choices, sequences of two or
more items and classes in brackets each add one to the depth of what they hold.

`Pattern.ofString?` also refuses what would be too deep or too large.
-/

namespace Sift.Pattern

open Unicode (CharSet)

/-! ## 1. Levels -/

/-- The greatest depth of a pattern. -/
def greatestDepth : Nat := 250

/-- A part of a pattern: its expression, and how deep it goes. -/
structure Part where
  regex : Regex
  depth : Nat

/-- A part one deeper, if that is not too deep. -/
def Part.deeper? (regex : Regex) (depth : Nat) : Option Part :=
  if depth < greatestDepth then some ⟨regex, depth + 1⟩ else none

/-- The depth of the deepest of several parts. -/
def deepest (ps : List Part) : Nat := ps.foldl (fun n p => max n p.depth) 0

/-- An item of a sequence. A setting of flags is one too, but nothing that could be repeated. -/
inductive Item
  | part (p : Part)
  | setting

/-- What an item is in a sequence. -/
def Item.toPart : Item → Part
  | .part p => p
  | .setting => ⟨.empty, 0⟩

/-- A group that is open, or the whole pattern: the complete alternatives and the items of the next
    one, both last first, the flags that hold again after it, and its number if it has one. -/
structure Level where
  alternatives : List Part := []
  items : List Item := []
  outer : Flags := {}
  number : Option Nat := none

/-- The part that a sequence of items makes, given last first. -/
def sequence? (items : List Item) : Option Part :=
  match items.reverse.map Item.toPart with
  | [] => some ⟨.empty, 0⟩
  | [p] => some p
  | ps => Part.deeper? (.sequence (ps.map (·.regex))) (deepest ps)

namespace Level

/-- The part of a level that is complete. -/
def close? (l : Level) : Option Part := do
  let last ← sequence? l.items
  match l.alternatives with
  | [] => some last
  | ps =>
    let ps := (last :: ps).reverse
    Part.deeper? (.choice (ps.map (·.regex))) (deepest ps)

/-- One more item. -/
def push (l : Level) (p : Part) : Level := { l with items := .part p :: l.items }

/-- The next alternative begins. -/
def alternate? (l : Level) : Option Level :=
  (sequence? l.items).map fun p => { l with alternatives := p :: l.alternatives, items := [] }

/-- The last item is repeated. -/
def repeated? (l : Level) (least : Nat) (most : Option Nat) (greedy : Bool) : Option Level :=
  match l.items with
  | .part p :: items =>
    (Part.deeper? (.repeated p.regex least most greedy) p.depth).map fun p =>
      { l with items := .part p :: items }
  | _ => none

end Level

/-- A pattern half read: the innermost level, those around it, the flags that hold, the names given
    to groups, and how many groups have a number. -/
structure Reading where
  top : Level
  around : List Level
  flags : Flags
  names : List (List Char)
  groups : Nat

/-! ## 2. Groups -/

/-- The flags that letters set, from what follows the question mark, up to the colon or the closing
    parenthesis, which is the first character of the rest. No letter may stand twice; after a
    hyphen, which may stand once, letters unset. -/
def flags? (f : Flags) (seen : List Char) (minus bare : Bool) :
    List Char → Option (Flags × List Char)
  | [] => none
  | c :: rest =>
    if c = ':' ∨ c = ')' then if minus && bare then none else some (f, c :: rest)
    else if c = '-' then if minus then none else flags? f seen true true rest
    else if seen.contains c then none
    else do flags? (← f.set? c !minus) (c :: seen) minus false rest

/-- Whether a character may stand in the name of a group. -/
def isNameChar (first : Bool) (c : Char) : Bool :=
  c == '_' || Unicode.isNameLetter c ||
    !first && (c == '.' || c == '[' || c == ']' || Unicode.isNameNumber c)

/-- The name of a group and what follows it, from what follows its opening angle bracket. -/
def groupName? (names : List (List Char)) (s : List Char) : Option (List Char × List Char) :=
  let name := s.takeWhile (· != '>')
  let isName := (name.take 1).all (isNameChar true) && (name.drop 1).all (isNameChar false)
  match s.dropWhile (· != '>') with
  | [] => none
  | _ :: rest =>
    if name.isEmpty || !isName || names.contains name then none else some (name, rest)

namespace Reading

/-- One more item at the innermost level. -/
def push (r : Reading) (p : Part) : Reading := { r with top := r.top.push p }

/-- One more item that holds no others. -/
def pushLeaf (r : Reading) (regex : Regex) : Reading := r.push ⟨regex, 0⟩

/-- A group begins, under the flags `inner`. -/
def begin (r : Reading) (inner : Flags) : Reading :=
  { r with top := { outer := r.flags }, around := r.top :: r.around, flags := inner }

/-- A group with a number begins. Numbers count from one. -/
def beginNumbered (r : Reading) : Reading :=
  let number := r.groups + 1
  { r with
    top := { outer := r.flags, number := some number }
    around := r.top :: r.around
    groups := number }

/-- A group or a setting of flags, from what follows the parenthesis. -/
def open? (r : Reading) (s : List Char) : Option (Reading × List Char) :=
  let s := r.flags.gap s
  let named (s : List Char) := (groupName? r.names s).map fun (name, rest) =>
    ({ r.beginNumbered with names := name :: r.names }, rest)
  match s with
  | '?' :: '=' :: _ | '?' :: '!' :: _ | '?' :: '<' :: '=' :: _ | '?' :: '<' :: '!' :: _ => none
  | '?' :: 'P' :: '<' :: rest => named rest
  | '?' :: '<' :: rest => named rest
  | '?' :: rest =>
    match flags? r.flags [] false true rest with
    | some (inner, ':' :: after) => some (r.begin inner, after)
    | some (inner, _ :: after) =>
      if rest.head? = some ')' then none
      else
        some ({ r with
          top := { r.top with items := .setting :: r.top.items }
          flags := inner }, after)
    | _ => none
  | rest => some (r.beginNumbered, rest)

/-- The innermost group closes. -/
def close? (r : Reading) : Option Reading :=
  match r.around with
  | [] => none
  | outer :: around => do
    let inner ← r.top.close?
    let regex := match r.top.number with
      | some number => .group number inner.regex
      | none => inner.regex
    let p ← Part.deeper? regex inner.depth
    return { r with
      top := outer.push p
      around
      flags := r.top.outer }

/-! ## 3. Repetitions -/

/-- After an operator a question mark asks for few times rather than many. Gives whether many are
    preferred, and the rest. -/
def afterOperator (f : Flags) : List Char → Bool × List Char
  | '?' :: rest => (f.swapped, rest)
  | rest => (!f.swapped, rest)

/-- The counts of a repetition and what follows it, from what follows its opening brace. -/
def counts? (f : Flags) (s : List Char) : Option (Nat × Option Nat × List Char) := do
  let (least, rest) ← decimal? f (f.gap s)
  let (most, rest) ← match rest with
    | ',' :: rest =>
      match f.gap rest with
      | '\x7d' :: _ => some (none, f.gap rest)
      | rest => (decimal? f rest).map fun (most, rest) => (some most, rest)
    | rest => some (some least, rest)
  match rest with
  | '\x7d' :: rest =>
    if (most.map fun m => decide (least ≤ m)).getD true then
      some (least, most, f.gap rest)
    else none
  | _ => none

/-! ## 4. The whole pattern -/

/-- A condition under the flags. -/
def lookOf (f : Flags) (start : Bool) : Look :=
  match f.lines, f.crlf, start with
  | false, _, true => .textStart
  | false, _, false => .textEnd
  | true, false, true => .lineStart
  | true, false, false => .lineEnd
  | true, true, true => .anyLineStart
  | true, true, false => .anyLineEnd

/-- The set of the dot under the flags. -/
def dotOf? (f : Flags) : Option CharSet :=
  if !f.unicode then none
  else if f.dotAll then some .all
  else if f.crlf then some (.compl (.ofList [0x0A, 0x0D]))
  else some (.compl (.single '\n'))

/-- The last item is repeated; what follows the operator is given. -/
def repeated? (r : Reading) (least : Nat) (most : Option Nat) (rest : List Char) :
    Option (Reading × List Char) :=
  let (greedy, rest) := afterOperator r.flags rest
  (r.top.repeated? least most greedy).map fun top => ({ r with top }, rest)

/-- One step: the part that the first character, which is no gap, begins. The fuel is more than the
    length of the rest. -/
def step? (r : Reading) (fuel : Nat) (c : Char) (rest : List Char) : Option (Reading × List Char) :=
  match c with
  | '(' => r.open? rest
  | ')' => r.close?.map (·, rest)
  | '|' => r.top.alternate?.map fun top => ({ r with top }, rest)
  | '[' => do
    let (class_, rest) ← bracket? r.flags fuel rest
    if class_.depth ≤ greatestDepth then
      return (r.push ⟨.ofSet class_.set, class_.depth⟩, rest)
    else none
  | '?' => r.repeated? 0 (some 1) rest
  | '*' => r.repeated? 0 none rest
  | '+' => r.repeated? 1 none rest
  | '\x7b' => do
    let (least, most, rest) ← counts? r.flags rest
    r.repeated? least most rest
  | '\\' => do
    let (e, rest) ← escape? r.flags rest
    match e with
    | .char c byte => return (r.pushLeaf (.ofSet (← r.flags.single? c byte)), rest)
    | .set s => return (r.pushLeaf (.ofSet s), rest)
    | .look l => return (r.pushLeaf (.look l), rest)
  | '.' => (dotOf? r.flags).map fun s => (r.pushLeaf (.ofSet s), rest)
  | '^' => some (r.pushLeaf (.look (lookOf r.flags true)), rest)
  | '$' => some (r.pushLeaf (.look (lookOf r.flags false)), rest)
  | c => (r.flags.single? c false).map fun s => (r.pushLeaf (.ofSet s), rest)

/-- Reads on to the end of the pattern. Every step uses up a character. -/
def run? : (fuel : Nat) → Reading → List Char → Option Part
  | 0, _, _ => none
  | fuel + 1, r, s =>
    match r.flags.gap s with
    | [] => if r.around.isEmpty then r.top.close? else none
    | c :: rest =>
      match r.step? fuel c rest with
      | some (r, rest) => run? fuel r rest
      | none => none

end Reading

/-- The expression that a pattern writes. -/
def read? (s : List Char) : Option Regex := do
  let p ← Reading.run? (s.length + 1) ⟨{}, [], {}, [], 0⟩ s
  if p.regex.fits then some p.regex else none

end Sift.Pattern
