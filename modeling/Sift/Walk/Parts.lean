import Sift.Walk.Basic

/-!
# What follows what in a document

The parts of a walk that objects, loops and documents are read with: what stands between the parts
of a container, how a loop turns to an element and what it makes of it, and how a document begins
and ends.
-/

namespace Sift

/-! ## 1. Loop modes -/

/-- What an element decides of a loop. -/
def LoopMode.decision : LoopMode → (satisfied : Bool) → Option Bool
  | .any, true => some true
  | .every, false | .anyEvery, false => some false
  | _, _ => none

/-- What a loop comes to when no element has decided it. -/
def LoopMode.conclusion : LoopMode → (anySatisfied : Bool) → Bool
  | .any, _ => false
  | .every, _ => true
  | .anyEvery, anySatisfied => anySatisfied

namespace Walk

variable {ε : Type}

/-! ## 2. Loops -/

/-- What a loop has come to, and the element that decided it if one did. -/
structure Verdict where
  answer : Bool
  decider : Option Token

/-- What the body of a loop says of the element that has been read. -/
def judge (bucket bodyBucket : Nat) : WalkOf ε Bool := do
  let mark := (← get).state.get bodyBucket
  note (.judged bucket mark)
  return mark == .value true

/-- Sets the stall, and tells what it was. -/
def exchangeStall (stall : Option Nat) : WalkOf ε (Option Nat) :=
  modifyGet fun w => (w.state.stall, { w with state := w.state.withStall stall })

/-- Forgets what lies below a loop, and sets the stall as it was before. -/
def leaveLoop (bucket : Nat) (outer : Option Nat) : WalkOf ε Unit :=
  modify fun w => { w with state := (w.state.resetBelow bucket).withStall outer }

variable [Failing ε]

/-- The bucket of the body of a loop. -/
def bodyOf (bucket : Nat) : WalkOf ε Nat := do
  checkBucket bucket
  let body := ((← get).state.tree.node bucket).left
  checkBucket body
  return body

/-- Turns to an element: nothing is known of what lies below the loop, and its slots are empty. -/
def beginElement (bucket : Nat) (locals : List Nat) (first : Token) : WalkOf ε Unit := do
  modify fun w => { w with state := w.state.resetBelow bucket }
  locals.forM release
  let w ← get
  note (.began bucket first w.state.marks w.slots)

/-- Passes an element whose reading has been broken off. A scalar has been read whole. -/
def passRest (early : Bool) (first : Token) : WalkOf ε Unit :=
  if early && !first.kind.isScalar then passAt first.offset else return

/-- Passes what follows the element that has decided a loop. -/
def passArray : (decider : Option Token) → WalkOf ε Unit
  | some decider => do
    passAt decider.offset
    skipContainer
  | none => return

/-! ## 3. Objects -/

/-- The name that a key stands for. Bytes that are no text name nothing. -/
def nameOf? (key : Token) : Option String := (Value.ofToken key).plainText?

/-- Reads what follows a part of a container: the bracket that closes it, or a comma and the first
    token of the next part. -/
def nextPart (closing : TokenKind) (expected : Expected) : WalkOf ε (Option Token) := do
  let token ← step
  if token.kind = .listDelim then return some (← step)
  else if token.kind = closing then return none
  else unexpected token expected

/-- Reads the colon that follows a key, and the first token of the value. -/
def memberStart (key : Token) : WalkOf ε Token := do
  if key.kind.isString then
    let colon ← step
    if colon.kind = .keyDelim then step else unexpected colon .colon
  else unexpected key .key

/-! ## 4. Documents -/

/-- The first token of a document. There must be one. -/
def opening : WalkOf ε Token := do
  let token ← step
  if token.kind = .finish then fail .unexpectedEnd else return token

/-- Nothing but blanks may follow. -/
def closing : WalkOf ε Unit := do
  let token ← step
  if token.kind = .finish then return else fail (.trailingData token.offset)

end Walk

end Sift
