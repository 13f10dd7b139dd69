import Sift.Pattern.Lexeme

/-!
# Classes in brackets

A class lists characters, ranges, escapes, named classes and other classes in brackets, and may
join such lists by the operations `&&`, `--` and `~~`, which group to the left and bind less than
listing. The classes still open stand on a stack.

How deep a class goes is counted along: brackets, lists of two or more items and operations each
add one to the depth of what they hold.
-/

namespace Sift.Pattern

open Unicode (CharSet)

/-! ## 1. Lists, operations and what is open -/

/-- A set as it was written, and how deep the writing goes. -/
structure Written where
  set : CharSet
  depth : Nat

/-- A list of items: the set of all of them, how many there are, and the depth of the deepest. -/
structure Listing where
  set : CharSet := .empty
  count : Nat := 0
  depth : Nat := 0

namespace Listing

/-- One more item. -/
def add (l : Listing) (item : Written) : Listing :=
  ⟨l.set.union item.set, l.count + 1, max l.depth item.depth⟩

/-- What is written by the whole list. -/
def close (l : Listing) : Written := ⟨l.set, if l.count ≤ 1 then l.depth else l.depth + 1⟩

end Listing

/-- An operation between two lists. -/
inductive SetOperation
  | inter | diff | symm

/-- The set of an operation. -/
def SetOperation.apply : SetOperation → CharSet → CharSet → CharSet
  | .inter => .inter
  | .diff => .diff
  | .symm => .symm

/-- What waits on the stack for the list now read. -/
inductive Pending
  /-- A class around this one: its list so far, and whether the class now read is negated. -/
  | around (list : Listing) (negated : Bool)
  /-- A left operand. -/
  | left (operation : SetOperation) (operand : Written)

/-- What is written by a list with the operation that waits for it, if there is one. -/
def joinLeft (f : Flags) (list : Listing) : List Pending → Written × List Pending
  | .left operation a :: stack =>
    let b := list.close
    (⟨operation.apply (f.cases a.set) (f.cases b.set), max a.depth b.depth + 1⟩, stack)
  | stack => (list.close, stack)

/-! ## 2. Items -/

/-- Hyphens and a closing bracket at the start of a class stand for themselves. `hyphens` is set once
    there was a hyphen: then a bracket closes the class. -/
def leadingItems (f : Flags) (list : Listing) (hyphens : Bool) : List Char → Listing × List Char
  | [] => (list, [])
  | c :: rest =>
    if c = '-' then leadingItems f (list.add ⟨.single '-', 0⟩) true (f.gap rest)
    else if c = ']' && !hyphens then (list.add ⟨.single ']', 0⟩, f.gap rest)
    else (list, c :: rest)
  termination_by s => s.length
  decreasing_by exact Nat.lt_succ_of_le (f.gap_length_le rest)

/-- The start of a class, from what follows its bracket: whether it is negated, its first items,
    and the rest. -/
def openClass (f : Flags) (s : List Char) : Bool × Listing × List Char :=
  let start := f.gap s
  let (negated, start) := match start with
    | '^' :: rest => (true, f.gap rest)
    | rest => (false, rest)
  let (list, rest) := leadingItems f {} false start
  (negated, list, rest)

/-- A named class of ASCII, from what follows its bracket: whether it is negated, and its set. -/
def namedClass? (s : List Char) : Option (Bool × CharSet × List Char) :=
  match s with
  | ':' :: rest =>
    let (negated, rest) := match rest with
      | '^' :: rest => (true, rest)
      | rest => (false, rest)
    match rest.dropWhile (· != ':') with
    | ':' :: ']' :: after =>
      (Class.ofAsciiName? (String.ofList (rest.takeWhile (· != ':')))).map fun set =>
        (negated, set, after)
    | _ => none
  | _ => none

/-- A character or escape of a class. -/
def classItem? (f : Flags) : List Char → Option (Escape × List Char)
  | [] => none
  | '\\' :: rest => escape? f rest
  | c :: rest => some (.char c false, rest)

/-- The character that one end of a range is. Where classes are those of ASCII it is of ASCII. -/
def rangeEnd? (f : Flags) : Escape → Option Nat
  | .char c _ => if f.unicode || c.toNat < 0x80 then some c.toNat else none
  | _ => none

/-- The first character that is no blank and does not begin a comment. -/
def firstPlain? : (comment : Bool) → List Char → Option Char
  | _, [] => none
  | comment, c :: rest =>
    if Text.isBlank c then firstPlain? comment rest
    else if !comment && c = '#' then firstPlain? true rest
    else some c

/-- The character that decides whether a hyphen with `rest` after it makes a range. Where gaps count
    for nothing it is looked for behind them, and even in a comment: there only the blanks and the
    sign that begins it are passed by. -/
def Flags.afterHyphen? (f : Flags) (rest : List Char) : Option Char :=
  if f.spaced then firstPlain? false rest else rest.head?

/-- A character, a range of characters, or an escape of a class. -/
def classRange? (f : Flags) (s : List Char) : Option (CharSet × List Char) := do
  let (first, rest) ← classItem? f s
  let rest := f.gap rest
  let single : Option (CharSet × List Char) :=
    match first with
    | .char _ _ => (rangeEnd? f first).map fun n => (.range n n, rest)
    | .set set => some (set, rest)
    | .look _ => none
  match rest with
  | [] => none
  | '-' :: more =>
    if f.afterHyphen? more = some ']' ∨ f.afterHyphen? more = some '-' then single
    else do
      let (last, rest) ← classItem? f (f.gap more)
      let a ← rangeEnd? f first
      let b ← rangeEnd? f last
      if a ≤ b then some (.range a b, rest) else none
  | _ => single

/-! ## 3. Classes -/

/-- Reads on in the class whose list so far is `list`. Every step uses up a character. -/
def classFrom? (f : Flags) : (fuel : Nat) → List Pending → Listing → List Char →
    Option (Written × List Char)
  | 0, _, _, _ => none
  | fuel + 1, stack, list, s =>
    let operation (op : SetOperation) (rest : List Char) :=
      let (operand, stack) := joinLeft f list stack
      classFrom? f fuel (.left op operand :: stack) {} rest
    match f.gap s with
    | [] => none
    | '[' :: rest =>
      match namedClass? rest with
      | some (negated, set, rest) => do
        let set ← f.negated? negated (f.cases set)
        classFrom? f fuel stack (list.add ⟨set, 0⟩) rest
      | none =>
        let (negated, inner, rest) := openClass f rest
        classFrom? f fuel (.around list negated :: stack) inner rest
    | ']' :: rest =>
      match joinLeft f list stack with
      | (written, .around outer negated :: stack) => do
        let set ← f.negated? negated (f.cases written.set)
        let closed : Written := ⟨set, written.depth + 1⟩
        if stack.isEmpty then some (closed, rest)
        else classFrom? f fuel stack (outer.add closed) rest
      | _ => none
    | '&' :: '&' :: rest => operation .inter rest
    | '-' :: '-' :: rest => operation .diff rest
    | '~' :: '~' :: rest => operation .symm rest
    | rest => do
      let (set, rest) ← classRange? f rest
      classFrom? f fuel stack (list.add ⟨set, 0⟩) rest

/-- A class, from what follows its opening bracket. The fuel is more than the length of that. -/
def bracket? (f : Flags) (fuel : Nat) (s : List Char) : Option (Written × List Char) :=
  let (negated, list, rest) := openClass f s
  classFrom? f fuel [.around {} negated] list rest

end Sift.Pattern
