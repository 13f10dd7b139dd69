import Sift.Walk.Parts

/-!
# Following a plan

What the nodes of a plan do when a walk comes to their values. A node becomes a `Handler`: what to
do while a value is read, once it has been read, and when there is none. A loop becomes a `Runner`,
which reads an array.

A walk that is settled is over, but no step of it stops the others: whoever has called one that may
have marked a bucket asks whether the walk is `settled`, and returns if it is, and so does its own
caller. The walker stays as it was at that moment.

Handlers are put together from the handlers of the children and the runners of the loops, so the
first part of this module knows nothing of plans, and the last part is one recursion over them.
-/

namespace Sift

/-- A walk that follows a plan. It stops early only where it fails. -/
abbrev Pass := WalkOf MatchError

/-! ## 1. Handlers and runners -/

/-- What a node does. -/
structure Handler where
  /-- Reads the value whose first token has been read. Where this settles the walk inside a
      container there is no value. -/
  read : Token → Pass (Option Value)
  /-- Does what remains to be done once the value has been read. The token is its first. -/
  finish : Token → Value → Pass Unit
  /-- Does what there is to do when there is no value. -/
  missing : Pass Unit

/-- Reads the value whose first token has been read, and does everything with it. -/
def Handler.handle (h : Handler) (token : Token) : Pass Unit := do
  match ← h.read token with
  | some v => h.finish token v
  | none => return

/-- What a loop does. -/
structure Runner where
  bucket : Nat
  /-- Reads the rest of the array that the walk stands in, and marks the bucket. -/
  run : Pass Unit

namespace Pass

open Walk

/-! ## 2. Marking -/

/-- Whether nothing more needs to be known. -/
def settled : Pass Bool := return (← read).isSettled (← get).state

/-- Marks a bucket. -/
def mark (bucket : Nat) (b : Bool) : Pass Unit := do
  checkBucket bucket
  match (← get).state.mark bucket b with
  | .error d => fail (.defect (.doubleMark d))
  | .ok state =>
    let settled := (← read).isSettled state
    modify fun w => { w with state }
    note (.marked bucket b (settled && state.stall.isNone))

/-- Makes a test of a value, unless its answer does not matter any more. -/
def test (active : Value) (t : Test) : Pass Unit := do
  if ← isUnknown t.bucket then
    t.check.slots.forM fun slot => discard (fetch t.bucket slot)
    let w ← get
    mark t.bucket (t.check.holds (← read).decimals (w.slots.value w.cursor.data) active)

/-- Does something for a bucket of which nothing is known, and tells whether that has settled the
    walk. -/
def ifUnknown (bucket : Nat) (part : Pass Unit) : Pass Bool := do
  if ← isUnknown bucket then
    part
    settled
  else return false

/-- Does one thing after the other, and stops at the first that tells that the walk is settled. -/
def untilSettled (f : α → Pass Bool) : List α → Pass Bool
  | [] => return false
  | a :: rest => do
    if ← f a then return true
    else untilSettled f rest

/-- Makes one test of a value after the other. -/
def testAll (active : Value) : List Test → Pass Bool :=
  untilSettled fun t => do
    test active t
    settled

/-- There is no array for any of the loops. -/
def failLoops : List Runner → Pass Bool :=
  untilSettled fun loop => ifUnknown loop.bucket (mark loop.bucket false)

/-! ## 3. Objects -/

/-- The handler of a member. -/
def handlerOf? (children : List (String × Handler)) (key : Token) : Option Handler :=
  match nameOf? key with
  | some name => (children.find? (·.1 = name)).map (·.2)
  | none => none

/-- There are no values for any of the children. -/
def missingAll : List (String × Handler) → Pass Bool :=
  untilSettled fun child => do
    child.2.missing
    settled

/-- Reads the value of a member whose first token has been read, and tells whether that has settled
    the walk. -/
def memberValue (children : List (String × Handler)) (key first : Token) : Pass Bool :=
  match handlerOf? children key with
  | some handler => do
    handler.handle first
    settled
  | none => do
    skipValue first
    return false

/-- Reads a member whose key has been read, and the key of the next if there is one. Otherwise it
    tells whether the walk has been settled. -/
def member (children : List (String × Handler)) (key : Token) : Pass (Token ⊕ Bool) := do
  let first ← memberStart key
  if ← memberValue children key first then return .inr true
  else
    match ← nextPart .objectEnd .memberEnd with
    | some key => return .inl key
    | none => return .inr false

/-- Reads the members of an object whose brace has been read. Children that have had no value yet
    have none. -/
def members (children : List (String × Handler)) : Pass Unit := do
  let key ← step
  if key.kind = .objectEnd then discard (missingAll children)
  else if ← repeatedly (member children) key then return
  else discard (missingAll children)

/-! ## 4. Loops -/

/-- Reads an element whose first token has been read, and the first token of the next if the
    element decides nothing and there is a next. -/
def element (bucket bodyBucket : Nat) (mode : LoopMode) (locals : List Nat) (body : Handler) :
    Token × Bool → Pass ((Token × Bool) ⊕ Verdict)
  | (first, anySatisfied) => do
    beginElement bucket locals first
    body.handle first
    let early ← settled
    let satisfied ← judge bucket bodyBucket
    match mode.decision satisfied with
    | some answer => return .inr ⟨answer, some first⟩
    | none =>
      passRest early first
      match ← nextPart .arrayEnd .elementEnd with
      | some next => return .inl (next, anySatisfied || satisfied)
      | none => return .inr ⟨mode.conclusion (anySatisfied || satisfied), none⟩

/-- Reads the elements of an array whose bracket has been read, as far as they are needed. -/
def elements (bucket bodyBucket : Nat) (mode : LoopMode) (locals : List Nat) (body : Handler) :
    Pass Verdict := do
  let first ← step
  if first.kind = .arrayEnd then return ⟨mode.conclusion false, none⟩
  else repeatedly (element bucket bodyBucket mode locals body) (first, false)

/-- **Runs a loop** over the array whose bracket has been read. -/
def runLoop (bucket : Nat) (mode : LoopMode) (locals : List Nat) (body : Handler) : Pass Unit := do
  let outer ← exchangeStall (some bucket)
  let bodyBucket ← bodyOf bucket
  let verdict ← elements bucket bodyBucket mode locals body
  leaveLoop bucket outer
  mark bucket verdict.answer
  if ← settled then return
  else passArray verdict.decider

/-- Runs a loop over the array whose bracket stands before `start`, or passes the array. -/
def runInline (start : Nat) (loop : Runner) : Pass Bool := do
  seek start
  if ← isUnknown loop.bucket then
    loop.run
    settled
  else
    skipContainer
    return false

/-- Runs one loop after the other over the array whose bracket has been read. -/
def runLoops (loops : List Runner) : Pass Unit := do
  discard (untilSettled (runInline (← get).cursor.position) loops)

/-- Runs a loop over what a slot has captured, if it is an array, and comes back. -/
def runOver (found : Option Span) (loop : Runner) : Pass Unit := do
  let cursor := (← get).cursor
  match found with
  | some span =>
    if span.opensArray cursor.data then
      seek (span.offset + 1)
      restoring loop.run (seek cursor.position)
    else mark loop.bucket false
  | none => mark loop.bucket false

/-- Runs a loop over an array that must have been captured. -/
def runCaptured (target : Operand) (loop : Runner) : Pass Unit := do
  match target with
  | .slot slot => runOver (← fetch loop.bucket slot) loop
  | _ => fail (.defect .notCaptured)

/-- Runs the loops that have waited, unless their answers do not matter any more. -/
def runWaiting : List (Operand × Runner) → Pass Bool :=
  untilSettled fun loop => ifUnknown loop.2.bucket (runCaptured loop.1 loop.2)

/-! ## 5. Values -/

/-- Makes a value of the bytes of a container that has been read. -/
def containerFrom (make : Bytes → Value) (token : Token) : Pass (Option Value) := do
  let span ← spanFrom token.offset
  return some (make (span.text (← get).cursor.data))

/-- Reads a container with `inside`, and makes a value of it unless the walk is settled. -/
def container (make : Bytes → Value) (token : Token) (inside : Pass Unit) :
    Pass (Option Value) := do
  inside
  if ← settled then return none
  else containerFrom make token

/-- Passes a container that there is nothing to do in, and makes a value of it. -/
def closedContainer (make : Bytes → Value) (token : Token) : Pass (Option Value) := do
  skipContainer
  containerFrom make token

/-- Reads the value whose first token has been read, looking only into a container that there is
    something to do in. -/
def readValue (loops : List Runner) (children : List (String × Handler)) (token : Token) :
    Pass (Option Value) :=
  match token.kind with
  | .objectStart =>
    if children.isEmpty then closedContainer .object token
    else container .object token (members children)
  | .arrayStart =>
    if loops.isEmpty then closedContainer .array token
    else container .array token (runLoops loops)
  | kind => if kind.isScalar then return some (.ofToken token) else unexpected token .value

/-- Does what waited until the value of a node had been read. -/
def after (tests : List Test) (loops : List (Operand × Runner)) : Pass Unit := do
  if ← testAll .missing tests then return
  else discard (runWaiting loops)

/-- Does a part of a walk unless a value is of the given kind. -/
def unlessOf (kind : TokenKind) (token : Token) (part : Pass Bool) : Pass Bool :=
  if token.kind = kind then return false else part

/-- Loops that have no array are done, and then it is asked whether the walk is settled. -/
def failedLoops (loops : List Runner) : Pass Bool := do
  let _ ← failLoops loops
  settled

/-- Does everything with a value that has been read, whose first token is `token`. -/
def finishValue (slot : Option Nat) (tests : List Test) (loops : List Runner)
    (children : List (String × Handler)) (waiting : Pass Unit) (token : Token) (v : Value) :
    Pass Unit := do
  capture token v slot
  if ← testAll v tests then return
  else if ← unlessOf .arrayStart token (failedLoops loops) then return
  else if ← unlessOf .objectStart token (missingAll children) then return
  else waiting

/-- Does everything that there is to do without a value. -/
def resolveMissing (tests : List Test) (loops : List Runner) (children : List (String × Handler))
    (waiting : Pass Unit) : Pass Unit := do
  if ← testAll .missing tests then return
  else if ← failedLoops loops then return
  else if ← missingAll children then return
  else waiting

/-! ## 6. Documents -/

/-- What is done with a document by the handler of its root. Once its value has been read, nothing
    but blanks may follow, also when the answer is known by then. -/
def document (root : Handler) : Pass Unit := do
  let token ← opening
  match ← root.read token with
  | some v =>
    note .wholeRead
    root.finish token v
    closing
  | none => return

end Pass

/-- The handler of a node with the given parts. -/
def Handler.ofParts (slot : Option Nat) (tests : List Test) (loops : List Runner)
    (children : List (String × Handler)) (afterTests : List Test)
    (afterLoops : List (Operand × Runner)) : Handler where
  read := Pass.readValue loops children
  finish := Pass.finishValue slot tests loops children (Pass.after afterTests afterLoops)
  missing := Pass.resolveMissing tests loops children (Pass.after afterTests afterLoops)

/-! ## 7. Plans -/

mutual

/-- **The handler of a node.** -/
def Node.handler : Node → Handler
  | ⟨slot, tests, loops, children, afterTests, afterLoops⟩ =>
    .ofParts slot tests (runners loops) (handlers children) afterTests (capturedRunners afterLoops)

/-- **The runner of a loop.** -/
def Loop.runner : Loop → Runner
  | ⟨bucket, mode, _, body, locals⟩ => ⟨bucket, Pass.runLoop bucket mode locals body.handler⟩

/-- The runners of several loops. -/
def runners : List Loop → List Runner
  | [] => []
  | loop :: rest => loop.runner :: runners rest

/-- The handlers of several children. -/
def handlers : List (String × Node) → List (String × Handler)
  | [] => []
  | (name, node) :: rest => (name, node.handler) :: handlers rest

/-- The runners of several loops over captured arrays, with where these are. -/
def capturedRunners : List Loop → List (Operand × Runner)
  | [] => []
  | loop :: rest => (loop.target, loop.runner) :: capturedRunners rest

end

end Sift
