import Sift.Walk.Error
import Sift.Cursor
import Sift.Plan.Test

/-!
# Walks over a document

A walk reads a document once from front to back, marks buckets as their values become known, and
captures values for later. It is a computation on a `Walker`. One that fails leaves the walker as it
was at that moment.

The trail of a walker is the account of what the walk did, the latest first.

This module has what walks are made of. A walk is *settled* when nothing more needs to be known, of
the document or, inside a loop, of the element at hand (`Setting.isSettled`); what to do about that
is not decided here, so nothing is said yet of why a walk may stop, except that it may fail.
-/

namespace Sift

/-! ## 1. The walker -/

/-- Something that a walk does. -/
inductive Event
  /-- It asks for the next token. -/
  | stepped
  /-- It skips a container. -/
  | skipped
  /-- It has read the value that the document is. -/
  | wholeRead
  /-- It marks a bucket. `decided` says that after this nothing more needs to be known of the
      document. -/
  | marked (bucket : Nat) (b decided : Bool)
  /-- It captures a value. -/
  | captured (slot : Nat) (span : Span) (v : Value)
  /-- It looks at a slot, for the test or the loop of a bucket. -/
  | fetched (reader slot : Nat) (found : Option Span)
  /-- It turns to an element of the loop at a bucket, when the marks and slots are these. -/
  | began (loop : Nat) (first : Token) (marks : Array Resolution.Mark) (slots : Slots)
  /-- It has read an element of the loop at a bucket, whose body has come to this mark. -/
  | judged (loop : Nat) (mark : Resolution.Mark)

/-- A walk under way. -/
structure Walker where
  cursor : Cursor
  state : Resolution.State
  slots : Slots
  trail : List Event

/-- What stays the same during a walk. -/
structure Setting where
  /-- The buckets to be answered. -/
  buckets : List Nat
  /-- More than the document has bytes, and so at least as many as it has tokens. -/
  bound : Nat
  /-- How doubles meet integers. -/
  decimals : Decimals

/-- Whether nothing more needs to be known: inside a loop its body, otherwise every bucket to be
    answered. -/
def Setting.isSettled (s : Setting) (state : Resolution.State) : Bool :=
  if state.stall.isNone && 1 < s.buckets.length then s.buckets.all state.isResolved
  else state.isSettled

/-- What walks may stop with: at least every error. -/
class Failing (ε : Type) where
  failed : MatchError → ε

instance : Failing MatchError := ⟨id⟩

/-- A walk, or a part of one, that may stop with an `ε`. -/
abbrev WalkOf (ε : Type) := ReaderT Setting (ExceptT ε (StateM Walker))

namespace Walk

variable {ε : Type}

/-- Adds to the trail. -/
def note (e : Event) : WalkOf ε Unit := modify fun w => { w with trail := e :: w.trail }

/-- Goes to another position. -/
def seek (position : Nat) : WalkOf ε Unit :=
  modify fun w => { w with cursor := w.cursor.seek position }

/-- Fills a slot or empties it. -/
def setSlot (slot : Nat) (found : Option Span) : WalkOf ε Unit :=
  modify fun w => { w with slots := w.slots.setIfInBounds slot found }

/-- A part of a walk, after which the walker is brought to order even if the part stops early. -/
def restoring (part restore : WalkOf ε Unit) : WalkOf ε Unit := do
  let outcome ← observing part
  restore
  match outcome with
  | .ok _ => return
  | .error halt => throw halt

variable [Failing ε]

/-- Fails. -/
def fail (e : MatchError) : WalkOf ε α := throw (Failing.failed e)

/-- Fails at a token. -/
def unexpected (token : Token) (expected : Expected) : WalkOf ε α := fail (.ofToken token expected)

/-- Goes on from one thing to the next until there is a result. No document gives more things than
    it has tokens. -/
def iterate (next : α → WalkOf ε (α ⊕ β)) : (fuel : Nat) → α → WalkOf ε β
  | 0, _ => fail (.defect .endless)
  | fuel + 1, a => do
    match ← next a with
    | .inl a => iterate next fuel a
    | .inr b => return b

/-- Goes on as long as the document may. -/
def repeatedly (next : α → WalkOf ε (α ⊕ β)) (a : α) : WalkOf ε β := do
  iterate next (← read).bound a

/-! ## 2. Reading -/

/-- The next token. -/
def step : WalkOf ε Token := do
  note .stepped
  let w ← get
  let (result, cursor) := w.cursor.step
  set { w with cursor }
  match result with
  | .ok token => return token
  | .error e => fail (.lex e)

/-- Passes the container that the walker stands in. -/
def skipContainer : WalkOf ε Unit := do
  note .skipped
  let w ← get
  let (result, cursor) := w.cursor.skipContainer
  set { w with cursor }
  match result with
  | .ok _ => return
  | .error e => fail (.lex e)

/-- Passes the value whose first token has been read. -/
def skipValue (token : Token) : WalkOf ε Unit :=
  if token.kind.opens then skipContainer
  else if token.kind.isScalar then return
  else unexpected token .value

/-- Goes to a position and passes the value that starts there. -/
def passAt (position : Nat) : WalkOf ε Unit := do
  seek position
  skipValue (← step)

/-! ## 3. Buckets -/

/-- Fails unless there is such a bucket. -/
def checkBucket (bucket : Nat) : WalkOf ε Unit := do
  if (← get).state.marks.size ≤ bucket then fail (.defect (.noBucket bucket))

/-- Whether nothing is known of a bucket. -/
def isUnknown (bucket : Nat) : WalkOf ε Bool := do
  checkBucket bucket
  return (← get).state.isUnknown bucket

/-! ## 4. Slots -/

/-- The bytes from an offset up to here. -/
def spanFrom (offset : Nat) : WalkOf ε Span := do
  let cursor := (← get).cursor
  if offset ≤ cursor.position ∧ cursor.position ≤ cursor.data.length then
    return .between offset cursor.position
  else fail (.defect (.noSpan offset cursor.position))

/-- What a slot holds. -/
def slotAt (slot : Nat) : WalkOf ε (Option Span) := do
  match (← get).slots[slot]? with
  | some found => return found
  | none => fail (.defect (.noSlot slot))

/-- Empties a slot. -/
def release (slot : Nat) : WalkOf ε Unit := do
  let _ ← slotAt slot
  setSlot slot none

/-- Looks at a slot for a bucket. What it holds must be bytes of the document. -/
def fetch (reader slot : Nat) : WalkOf ε (Option Span) := do
  let found ← slotAt slot
  note (.fetched reader slot found)
  match found with
  | some span =>
    if span.isInside (← get).cursor.data then return found
    else fail (.defect (.noSpan span.offset span.stop))
  | none => return none

/-- Captures the value that starts with a token and ends here, if there is a slot for it. The value
    captured first stays. -/
def capture (token : Token) (v : Value) : (slot : Option Nat) → WalkOf ε Unit
  | none => return
  | some slot => do
    match ← slotAt slot with
    | some _ => return
    | none =>
      let span ← spanFrom token.offset
      setSlot slot (some span)
      note (.captured slot span v)

end Walk

end Sift
