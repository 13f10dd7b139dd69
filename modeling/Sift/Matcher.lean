import Sift.Walk.Handler

/-!
# Matching documents

`Plan.walk` walks over one document as a plan directs. A `Matcher` does it for one document after
the other and tells which expressions of the plan are true of the last one. Between two documents
it has to be reset.
-/

namespace Sift

/-! ## 1. One document -/

/-- Nothing read and nothing known. -/
def Walker.fresh (p : Plan) : Walker where
  cursor := .start []
  state := .fresh p.tree
  slots := Array.replicate p.slots none
  trail := []

namespace Plan

/-- How the walk over a document is set. -/
def setting (p : Plan) (D : Decimals) (data : Bytes) : Setting := ⟨p.buckets, data.length + 1, D⟩

/-- **Walks over a document** from its start, with the marks and slots of a walker. It ends well if
    it comes to the end of the document, and also if it is settled before. -/
def walk (p : Plan) (D : Decimals) (w : Walker) (data : Bytes) : Except MatchError Unit × Walker :=
  let w := { w with cursor := .start data, trail := [] }
  (Pass.document p.root.handler).run (p.setting D data) |>.run.run w

end Plan

/-! ## 2. Matchers -/

/-- A plan, and how far the match of a document has come. -/
structure Matcher where
  plan : Plan
  walker : Walker
  /-- Whether there has been a match since the last reset. -/
  used : Bool

namespace Matcher

/-- Ready for a document. -/
def fresh (p : Plan) : Matcher := ⟨p, .fresh p, false⟩

/-- Ready for another document. What is known of the last one is forgotten, its slots are emptied,
    and what has been read does not count any more. -/
def reset (m : Matcher) : Matcher :=
  { m with
    walker :=
      { cursor := .start []
        state := m.walker.state.reset
        slots := m.walker.slots.map fun _ => none
        trail := [] }
    used := false }

/-- Whether an expression of the plan is true of the document. There is nothing to say past the
    last. -/
def isTrueAt (m : Matcher) (i : Nat) : Bool :=
  match m.plan.buckets[i]? with
  | some bucket => m.walker.state.isTrue bucket
  | none => false

/-- Whether any expression of the plan is true of the document. -/
def isTrue (m : Matcher) : Bool := m.plan.buckets.any m.walker.state.isTrue

/-- **Matches a document**, and tells whether any expression of the plan is true of it. -/
def run (m : Matcher) (D : Decimals) (data : Bytes) : Except MatchError Bool × Matcher :=
  if m.used then (.error .staleState, m)
  else
    let (outcome, walker) := m.plan.walk D m.walker data
    let m := { m with walker, used := true }
    (outcome.map fun _ => m.isTrue, m)

end Matcher

/-- **Whether any expression of a plan is true of a document.** -/
def Plan.test (p : Plan) (D : Decimals) (data : Bytes) : Except MatchError Bool :=
  ((Matcher.fresh p).run D data).1

end Sift
