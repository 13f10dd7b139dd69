import Sift.Pattern.Property
import Sift.Pattern.Regex
import Sift.Text.Blank

/-!
# The small parts of a pattern

What a pattern is made of below brackets and groups: numbers, escapes and their classes. Every
reader takes the rest of the pattern and gives what it read with what follows, or nothing where the
pattern is malformed. `Flags` says how the parts are to be read at a place.
-/

namespace Sift.Pattern

open Unicode (CharSet)

/-! ## 1. Flags -/

/-- How a part of a pattern is read. -/
structure Flags where
  /-- Letters stand for both cases. -/
  anyCase : Bool := false
  /-- `^` and `$` stand for the ends of lines. -/
  lines : Bool := false
  /-- The dot stands for line feeds too. -/
  dotAll : Bool := false
  /-- Repetitions prefer few times to many, unless they are marked. -/
  swapped : Bool := false
  /-- Classes are those of Unicode, not those of ASCII. -/
  unicode : Bool := true
  /-- Lines may end with carriage return and line feed. -/
  crlf : Bool := false
  /-- Blanks and comments in the pattern count for nothing. -/
  spaced : Bool := false

/-- Sets the flag of a letter. -/
def Flags.set? (f : Flags) (letter : Char) (on : Bool) : Option Flags :=
  match letter with
  | 'i' => some { f with anyCase := on }
  | 'm' => some { f with lines := on }
  | 's' => some { f with dotAll := on }
  | 'U' => some { f with swapped := on }
  | 'u' => some { f with unicode := on }
  | 'R' => some { f with crlf := on }
  | 'x' => some { f with spaced := on }
  | _ => none

/-! ## 2. Blanks and comments -/

/-- Drops blanks and comments, which end with their line. -/
def dropSpaced : (comment : Bool) → List Char → List Char
  | _, [] => []
  | true, c :: rest => dropSpaced (c != '\n') rest
  | false, c :: rest =>
    if Text.isBlank c then dropSpaced false rest
    else if c = '#' then dropSpaced true rest
    else c :: rest

theorem dropSpaced_length_le (comment : Bool) (s : List Char) :
    (dropSpaced comment s).length ≤ s.length := by
  fun_induction dropSpaced comment s with
  | case1 => simp
  | case2 c rest ih => simp only [List.length_cons]; omega
  | case3 c rest _ ih => simp only [List.length_cons]; omega
  | case4 rest _ ih => simp only [List.length_cons]; omega
  | case5 c rest _ _ => simp

/-- What follows the blanks and comments that count for nothing. -/
def Flags.gap (f : Flags) (s : List Char) : List Char := if f.spaced then dropSpaced false s else s

theorem Flags.gap_length_le (f : Flags) (s : List Char) : (f.gap s).length ≤ s.length := by
  unfold Flags.gap
  split
  · exact dropSpaced_length_le false s
  · exact Nat.le_refl _

/-! ## 3. Numbers -/

/-- The leading characters for which `p`, gaps between them dropped, and what follows. -/
def Flags.span (f : Flags) (p : Char → Bool) : List Char → List Char × List Char
  | [] => ([], [])
  | c :: rest =>
    if p c then
      let (more, rest) := f.span p (f.gap rest)
      (c :: more, rest)
    else ([], c :: rest)
  termination_by s => s.length
  decreasing_by exact Nat.lt_succ_of_le (f.gap_length_le rest)

/-- Numbers of a pattern are below `2^32`. -/
def numberOf? (base : Nat) (digits : List Char) : Option Nat :=
  let n := digits.foldl (fun n c => n * base + (Text.hexDigit? c).getD 0) 0
  if digits.isEmpty ∨ UInt32.size ≤ n then none else some n

/-- A decimal number with blanks around it. -/
def decimal? (f : Flags) (s : List Char) : Option (Nat × List Char) :=
  let (digits, rest) := f.span Char.isDigit (s.dropWhile Text.isBlank)
  (numberOf? 10 digits).map (·, rest.dropWhile Text.isBlank)

/-- The character of a number. -/
def charOf? (n : Nat) : Option Char := if n.isValidChar then some (Char.ofNat n) else none

/-- The first `count` hexadecimal digits, with gaps between them. -/
def hexDigits? (f : Flags) : (count : Nat) → List Char → Option (List Char × List Char)
  | 0, s => some ([], s)
  | count + 1, c :: rest => do
    let _ ← Text.hexDigit? c
    let (more, rest) ← hexDigits? f count (if count = 0 then rest else f.gap rest)
    return (c :: more, rest)
  | _ + 1, [] => none

/-- The character that a hexadecimal escape names, from what follows its letter: `width` digits,
    or any number of them in braces. -/
def hexChar? (f : Flags) (width : Nat) (s : List Char) : Option (Char × List Char) :=
  match f.gap s with
  | '\x7b' :: rest => do
    let (digits, rest) := f.span (· != '\x7d') (f.gap rest)
    if digits.all fun c => (Text.hexDigit? c).isSome then
      let c ← charOf? (← numberOf? 16 digits)
      if rest.isEmpty then none else some (c, f.gap (rest.drop 1))
    else none
  | rest => do
    let (digits, rest) ← hexDigits? f width rest
    return (← charOf? (← numberOf? 16 digits), f.gap rest)

/-! ## 4. Escapes -/

/-- What an escape stands for. -/
inductive Escape
  /-- A character. `byte` marks one written by two hexadecimal digits. -/
  | char (c : Char) (byte : Bool)
  | set (s : CharSet)
  | look (l : Look)

/-- A set with all cases of its members, if the flags ask for them. -/
def Flags.cases (f : Flags) (s : CharSet) : CharSet :=
  if f.anyCase then if f.unicode then s.anyCase else s.anyAsciiCase else s

/-- A set, complemented if `negated`. Where classes are those of ASCII a complement would reach past
    it, and is refused. -/
def Flags.negated? (f : Flags) (negated : Bool) (s : CharSet) : Option CharSet :=
  if !negated then some s else if f.unicode then some s.compl else none

/-- What is before the first place where `mark` stands, and what is after it, if it stands
    anywhere. -/
def splitAt? (mark : List Char) : List Char → Option (List Char × List Char)
  | [] => none
  | c :: rest =>
    if mark.isPrefixOf (c :: rest) then some ([], (c :: rest).drop mark.length)
    else (splitAt? mark rest).map fun (before, after) => (c :: before, after)

/-- The set of a property, written as a name or as a name and a value with a mark between them. The
    marks are looked for in this order, and mean all the same. -/
def ofProperty? (text : List Char) : Option CharSet :=
  match ["!=", ":", "="].findSome? fun mark => splitAt? mark.toList text with
  | some (property, value) => ofValue? property value
  | none => ofName? text

/-- The class of a property, from what follows its letter. -/
def property? (f : Flags) (negated : Bool) (s : List Char) : Option (CharSet × List Char) := do
  if !f.unicode then none
  let (name, rest) ← match f.gap s with
    | [] => none
    | '\x7b' :: rest =>
      let (name, rest) := f.span (· != '\x7d') (f.gap rest)
      if rest.isEmpty then none else some (name, rest.drop 1)
    | c :: rest => if c = '\\' then none else some ([c], f.gap rest)
  let set ← ofProperty? name
  return (← f.negated? negated (f.cases set), rest)

/-- Punctuation that means something in patterns, and stands for itself after a backslash. -/
def isMeta (c : Char) : Bool := "\\.+*?()|[]\x7b\x7d^$#&-~".toList.contains c

/-- Whether a character stands for itself after a backslash. -/
def isPlainEscape (c : Char) : Bool :=
  isMeta c || c.toNat < 0x80 && !c.isAlphanum && c != '<' && c != '>'

/-- A letter of an escape for a place in words, with braces around its name. Braces that hold
    something else are left for a repetition. -/
def boundary? (f : Flags) (s : List Char) : Option (Look × List Char) :=
  let isPart (c : Char) : Bool := c.isAlpha || c == '-'
  let plain := some (Look.boundary f.unicode, s)
  match s with
  | '\x7b' :: rest =>
    match f.gap rest with
    | [] => none
    | c :: more =>
      if isPart c then
        match f.span isPart (c :: more) with
        | (name, '\x7d' :: rest) =>
          (match String.ofList name with
          | "start" => some (Look.wordStart f.unicode)
          | "end" => some (Look.wordEnd f.unicode)
          | "start-half" => some (Look.halfStart f.unicode)
          | "end-half" => some (Look.halfEnd f.unicode)
          | _ => none).map (·, rest)
        | _ => none
      else plain
  | _ => plain

/-- What an escape stands for, from what follows its backslash. -/
def escape? (f : Flags) : List Char → Option (Escape × List Char)
  | [] => none
  | c :: rest =>
    let char (n : Nat) := some (Escape.char (Char.ofNat n) false, rest)
    let look (l : Look) := some (Escape.look l, rest)
    let set (negated : Bool) (s : CharSet) := (f.negated? negated s).map fun s => (Escape.set s, rest)
    match c with
    | 'x' => (hexChar? f 2 rest).map fun (c, after) =>
        (.char c ((f.gap rest).head? != some '\x7b'), after)
    | 'u' => (hexChar? f 4 rest).map fun (c, after) => (.char c false, after)
    | 'U' => (hexChar? f 8 rest).map fun (c, after) => (.char c false, after)
    | 'p' => (property? f false rest).map fun (s, after) => (.set s, after)
    | 'P' => (property? f true rest).map fun (s, after) => (.set s, after)
    | 'd' => set false (Class.digits f.unicode)
    | 'D' => set true (Class.digits f.unicode)
    | 's' => set false (Class.blanks f.unicode)
    | 'S' => set true (Class.blanks f.unicode)
    | 'w' => set false (Class.words f.unicode)
    | 'W' => set true (Class.words f.unicode)
    | 'a' => char 0x07
    | 'f' => char 0x0C
    | 't' => char 0x09
    | 'n' => char 0x0A
    | 'r' => char 0x0D
    | 'v' => char 0x0B
    | 'A' => look .textStart
    | 'z' => look .textEnd
    | 'b' => (boundary? f rest).map fun (l, after) => (.look l, after)
    | 'B' => look (.noBoundary f.unicode)
    | '<' => look (.wordStart f.unicode)
    | '>' => look (.wordEnd f.unicode)
    | c => if isPlainEscape c then some (.char c false, rest) else none

/-- The set of a single character under the flags. A byte past ASCII stands for no character where
    classes are those of ASCII. -/
def Flags.single? (f : Flags) (c : Char) (byte : Bool) : Option CharSet :=
  if !f.unicode && byte && 0x80 ≤ c.toNat then none else some (f.cases (.single c))

end Sift.Pattern
