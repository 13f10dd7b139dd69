import Sift.Matcher
import Sift.Plan.Compile
import Sift.Plan.Explain
import Sift.Expr.Text
import Sift.Text.Blank

/-!
# Filtering lines

A filter keeps the documents that an expression is true of, or those that it is not true of, from
a text with one document a line. Blanks around a document do not count, and a line of blanks is no
document. The first document that is too large or cannot be matched ends the work.

One matcher serves all documents of a text. It is reset before each.
-/

namespace Sift

/-! ## 1. Errors -/

/-- Why there is no answer. -/
inductive FilterError
  /-- The text of the expression is not one. -/
  | expression
  | compile (e : CompileError)
  /-- A document cannot be matched. -/
  | document (line : Nat) (e : MatchError)
  /-- A document has too many bytes. -/
  | tooLarge (line length limit : Nat)
  | noInput
  deriving DecidableEq, Repr

/-- What an error says. -/
def FilterError.message : FilterError → String
  | .expression => "invalid expression"
  | .compile e => s!"compile error: {e.message}"
  | .document line e => s!"line {line}: {e.message}"
  | .tooLarge line length limit => s!"line {line}: document is {length} bytes, limit is {limit}"
  | .noInput => "No input provided. Use --input or pipe NDJSON to stdin."

/-! ## 2. Documents -/

/-- A document of a text, and the number of its line, counted from one. -/
structure Document where
  line : Nat
  text : String
  deriving DecidableEq, Repr

namespace Document

/-- The bytes of a document. -/
def bytes (d : Document) : Bytes := Utf8.bytes d.text

/-- The documents on lines of which the first has the given number. -/
def ofLines : (line : Nat) → List (List Char) → List Document
  | _, [] => []
  | line, text :: rest =>
    match Text.trim text with
    | [] => ofLines (line + 1) rest
    | cs => ⟨line, String.ofList cs⟩ :: ofLines (line + 1) rest

/-- The documents of a text, in order. -/
def ofText (input : String) : List Document := ofLines 1 (Text.lines input.toList)

end Document

/-! ## 3. Filtering -/

/-- How a filter deals with documents. -/
structure FilterRule where
  /-- How many bytes a document may have. -/
  limit : Nat
  /-- Whether to keep what does not match. -/
  invert : Bool
  deriving DecidableEq, Repr

/-- The number of bytes that a document may have unless told otherwise: sixteen times 2 to the
    twentieth. -/
def FilterRule.usualLimit : Nat := 16 * 1024 * 1024

/-- The documents that a plan keeps of a text, and how many it has judged. -/
structure Selection where
  lines : List String
  scanned : Nat
  deriving DecidableEq, Repr

namespace Matcher

/-- Whether a document is kept. -/
def keeps (D : Decimals) (rule : FilterRule) (m : Matcher) (d : Document) :
    Except FilterError (Bool × Matcher) :=
  if d.bytes.length > rule.limit then .error (.tooLarge d.line d.bytes.length rule.limit)
  else
    match m.reset.run D d.bytes with
    | (.ok matched, m) => .ok (matched != rule.invert, m)
    | (.error e, _) => .error (.document d.line e)

/-- Judges one document after the other, with those kept before, the last of them first, and the
    number of those judged before. -/
def keepAll (D : Decimals) (rule : FilterRule) : Matcher → (kept : List String) →
    (scanned : Nat) → List Document → Except FilterError Selection
  | _, kept, scanned, [] => .ok ⟨kept.reverse, scanned⟩
  | m, kept, scanned, d :: rest =>
    match m.keeps D rule d with
    | .ok (true, m) => keepAll D rule m (d.text :: kept) (scanned + 1) rest
    | .ok (false, m) => keepAll D rule m kept (scanned + 1) rest
    | .error e => .error e

end Matcher

/-- **Filters a text.** -/
def Plan.filter (p : Plan) (D : Decimals) (rule : FilterRule) (input : String) :
    Except FilterError Selection :=
  (Matcher.fresh p).keepAll D rule [] 0 (Document.ofText input)

/-! ## 4. Requests -/

/-- What is asked for. -/
structure FilterRequest where
  /-- The text of the expression. -/
  expression : String
  input : Option String
  rule : FilterRule
  /-- To see whether there is a plan, and nothing else. -/
  checkOnly : Bool
  /-- To see the plan, and nothing else. -/
  explain : Bool
  deriving DecidableEq, Repr

/-- What is answered. -/
inductive FilterAnswer
  /-- There is a plan, with so many buckets and slots. -/
  | valid (buckets slots : Nat)
  /-- The plan as text. -/
  | plan (text : String)
  | selection (s : Selection)
  deriving DecidableEq, Repr

/-- **Answers a request.** -/
def FilterRequest.answer (q : FilterRequest) (kit : Toolkit) : Except FilterError FilterAnswer :=
  match Expr.ofText? kit.json q.expression with
  | none => .error .expression
  | some e =>
    match Plan.compile kit e with
    | .error e => .error (.compile e)
    | .ok p =>
      if q.checkOnly then .ok (.valid p.tree.size p.slots)
      else if q.explain then .ok (.plan (p.explain kit.json))
      else
        match q.input with
        | none => .error .noInput
        | some input => (p.filter kit.decimals q.rule input).map .selection

end Sift
