import Sift.Walk.Parts

/-!
# Walks that halt when they are settled

The same as `Pass`, told in another way: a mark that settles the walk is thrown like an error, and
only a loop, for its elements, and the document catch it. So nobody has to ask whether the walk is
settled, one part after another is the whole of what is done, and statements about walks are put
together the same way. `Pass.outcome_document` says that both come to the same.
-/

namespace Sift

/-! ## 1. Walks that halt -/

/-- Why a walk stops before its end. -/
inductive Halt
  | settled
  | failed (e : MatchError)
  deriving DecidableEq, Repr

instance : Failing Halt := ⟨.failed⟩

/-- A walk, or a part of one, that halts where it is settled. -/
abbrev Walk := WalkOf Halt

namespace Walk

/-- Whether a part of a walk settles it. It fails if the part fails. -/
def settles (part : Walk Unit) : Walk Bool := do
  match ← observing part with
  | .ok _ => return false
  | .error .settled => return true
  | .error (.failed e) => fail e

/-- Marks a bucket, and stops if nothing more needs to be known. -/
def mark (bucket : Nat) (b : Bool) : Walk Unit := do
  checkBucket bucket
  match (← get).state.mark bucket b with
  | .error d => fail (.defect (.doubleMark d))
  | .ok state =>
    let settled := (← read).isSettled state
    modify fun w => { w with state }
    note (.marked bucket b (settled && state.stall.isNone))
    if settled then throw .settled

/-- Marks a bucket if nothing is known of it. -/
def markIfUnknown (bucket : Nat) (b : Bool) : Walk Unit := do
  if ← isUnknown bucket then mark bucket b

/-- Makes a test of a value, unless its answer does not matter any more. -/
def test (active : Value) (t : Test) : Walk Unit := do
  if ← isUnknown t.bucket then
    t.check.slots.forM fun slot => discard (fetch t.bucket slot)
    let w ← get
    mark t.bucket (t.check.holds (← read).decimals (w.slots.value w.cursor.data) active)

/-! ## 2. Handlers and runners -/

/-- What a node does. -/
structure Handler where
  /-- Reads the value whose first token has been read. -/
  read : Token → Walk Value
  /-- Does what remains to be done once the value has been read. The token is its first. -/
  finish : Token → Value → Walk Unit
  /-- Does what there is to do when there is no value. -/
  missing : Walk Unit

/-- Reads the value whose first token has been read, and does everything with it. -/
def Handler.handle (h : Handler) (token : Token) : Walk Unit := do
  h.finish token (← h.read token)

/-- What a loop does. -/
structure Runner where
  bucket : Nat
  /-- Reads the rest of the array that the walk stands in, and marks the bucket. -/
  run : Walk Unit

/-! ## 3. Objects -/

/-- The handler of a member. -/
def handlerOf? (children : List (String × Handler)) (key : Token) : Option Handler :=
  match nameOf? key with
  | some name => (children.find? (·.1 = name)).map (·.2)
  | none => none

/-- There are no values for any of the children. -/
def missingAll (children : List (String × Handler)) : Walk Unit :=
  children.forM fun child => child.2.missing

/-- Reads the value of a member whose first token has been read. -/
def memberValue (children : List (String × Handler)) (key first : Token) : Walk Unit :=
  match handlerOf? children key with
  | some handler => handler.handle first
  | none => skipValue first

/-- Reads a member whose key has been read, and the key of the next if there is one. -/
def member (children : List (String × Handler)) (key : Token) : Walk (Token ⊕ Unit) := do
  let first ← memberStart key
  memberValue children key first
  match ← nextPart .objectEnd .memberEnd with
  | some key => return .inl key
  | none => return .inr ()

/-- Reads the members of an object whose brace has been read. Children that have had no value yet
    have none. -/
def members (children : List (String × Handler)) : Walk Unit := do
  let key ← step
  if key.kind = .objectEnd then missingAll children
  else
    repeatedly (member children) key
    missingAll children

/-! ## 4. Loops -/

/-- Reads an element whose first token has been read, and the first token of the next if the
    element decides nothing and there is a next. -/
def element (bucket bodyBucket : Nat) (mode : LoopMode) (locals : List Nat) (body : Handler) :
    Token × Bool → Walk ((Token × Bool) ⊕ Verdict)
  | (first, anySatisfied) => do
    beginElement bucket locals first
    let early ← settles (body.handle first)
    let satisfied ← judge bucket bodyBucket
    match mode.decision satisfied with
    | some answer => return .inr ⟨answer, some first⟩
    | none =>
      passRest early first
      match ← nextPart .arrayEnd .elementEnd with
      | some next => return .inl (next, anySatisfied || satisfied)
      | none => return .inr ⟨mode.conclusion (anySatisfied || satisfied), none⟩

/-- Reads the elements of an array whose bracket has been read, as far as they are needed. -/
def elements (bucket bodyBucket : Nat) (mode : LoopMode) (locals : List Nat) (body : Handler) :
    Walk Verdict := do
  let first ← step
  if first.kind = .arrayEnd then return ⟨mode.conclusion false, none⟩
  else repeatedly (element bucket bodyBucket mode locals body) (first, false)

/-- **Runs a loop** over the array whose bracket has been read. -/
def runLoop (bucket : Nat) (mode : LoopMode) (locals : List Nat) (body : Handler) : Walk Unit := do
  let outer ← exchangeStall (some bucket)
  let bodyBucket ← bodyOf bucket
  let verdict ← elements bucket bodyBucket mode locals body
  leaveLoop bucket outer
  mark bucket verdict.answer
  passArray verdict.decider

/-- Runs one loop after the other over the array whose bracket has been read. -/
def runLoops (loops : List Runner) : Walk Unit := do
  let start := (← get).cursor.position
  loops.forM fun loop => do
    seek start
    if ← isUnknown loop.bucket then loop.run else skipContainer

/-- There is no array for any of the loops. -/
def failLoops (loops : List Runner) : Walk Unit :=
  loops.forM fun loop => markIfUnknown loop.bucket false

/-- Runs a loop over what a slot has captured, if it is an array, and comes back. -/
def runOver (found : Option Span) (loop : Runner) : Walk Unit := do
  let cursor := (← get).cursor
  match found with
  | some span =>
    if span.opensArray cursor.data then
      seek (span.offset + 1)
      restoring loop.run (seek cursor.position)
    else mark loop.bucket false
  | none => mark loop.bucket false

/-- Runs a loop over an array that must have been captured, unless its answer does not matter any
    more. -/
def runCaptured (target : Operand) (loop : Runner) : Walk Unit := do
  if ← isUnknown loop.bucket then
    match target with
    | .slot slot => runOver (← fetch loop.bucket slot) loop
    | _ => fail (.defect .notCaptured)

/-! ## 5. Values -/

/-- Reads a container with `inside`, and makes a value of its bytes. -/
def container (make : Bytes → Value) (token : Token) (inside : Walk Unit) : Walk Value := do
  inside
  let span ← spanFrom token.offset
  return make (span.text (← get).cursor.data)

/-- Reads the value whose first token has been read, looking only into a container that there is
    something to do in. -/
def readValue (loops : List Runner) (children : List (String × Handler)) (token : Token) :
    Walk Value :=
  match token.kind with
  | .objectStart =>
    container .object token (if children.isEmpty then skipContainer else members children)
  | .arrayStart =>
    container .array token (if loops.isEmpty then skipContainer else runLoops loops)
  | kind => if kind.isScalar then return .ofToken token else unexpected token .value

/-- Does a part of a walk unless a value is of the given kind. -/
def unlessOf (kind : TokenKind) (token : Token) (part : Walk Unit) : Walk Unit :=
  if token.kind = kind then return else part

/-- Does what waited until the value of a node had been read. -/
def after (tests : List Test) (loops : List (Operand × Runner)) : Walk Unit := do
  tests.forM (test .missing)
  loops.forM fun loop => runCaptured loop.1 loop.2

/-! ## 6. Documents -/

/-- What is done with a document by the handler of its root. Once its value has been read, nothing
    but blanks may follow, also when the answer is known by then. -/
def document (root : Handler) : Walk Unit := do
  let token ← opening
  let v ← root.read token
  note .wholeRead
  let _ ← settles (root.finish token v)
  closing

/-- The handler of a node with the given parts. -/
def Handler.ofParts (slot : Option Nat) (tests : List Test) (loops : List Runner)
    (children : List (String × Handler)) (afterTests : List Test)
    (afterLoops : List (Operand × Runner)) : Handler where
  read := Walk.readValue loops children
  finish token v := do
    Walk.capture token v slot
    tests.forM (Walk.test v)
    Walk.unlessOf .arrayStart token (Walk.failLoops loops)
    Walk.unlessOf .objectStart token (Walk.missingAll children)
    Walk.after afterTests afterLoops
  missing := do
    tests.forM (Walk.test .missing)
    Walk.failLoops loops
    Walk.missingAll children
    Walk.after afterTests afterLoops

end Walk

/-! ## 7. Plans -/

mutual

/-- **The handler of a node.** -/
def Node.halting : Node → Walk.Handler
  | ⟨slot, tests, loops, children, afterTests, afterLoops⟩ =>
    .ofParts slot tests (haltingLoops loops) (haltingChildren children) afterTests
      (haltingWaiting afterLoops)

/-- **The runner of a loop.** -/
def Loop.halting : Loop → Walk.Runner
  | ⟨bucket, mode, _, body, locals⟩ => ⟨bucket, Walk.runLoop bucket mode locals body.halting⟩

/-- The runners of several loops. -/
def haltingLoops : List Loop → List Walk.Runner
  | [] => []
  | loop :: rest => loop.halting :: haltingLoops rest

/-- The handlers of several children. -/
def haltingChildren : List (String × Node) → List (String × Walk.Handler)
  | [] => []
  | (name, node) :: rest => (name, node.halting) :: haltingChildren rest

/-- The runners of several loops over captured arrays, with where these are. -/
def haltingWaiting : List Loop → List (Operand × Walk.Runner)
  | [] => []
  | loop :: rest => (loop.target, loop.halting) :: haltingWaiting rest

end

end Sift
