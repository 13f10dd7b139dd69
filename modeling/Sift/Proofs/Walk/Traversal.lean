import Sift.Walk.Handler

/-!
# What is said of every part of a walk

Much that is said of walks is said of all their parts alike: it holds of a part that only looks, and
of one part after the other if it holds of both. `Composes J` says this of `J`, `Proceeds J` that it
holds of going forward in the document as well, and `Roams J` of going anywhere.

Then `J` holds of all that is put together of such parts, and this module goes once through them for
every `J`: tests, what follows a value, objects, the elements of an array, the handlers of nodes. What
remains to be shown in each case are the parts that do something to the marks and the slots, and the
loops, which are read under another stall.
-/

namespace Sift

open Walk

variable {J : (α : Type) → Pass α → Prop} {α β : Type}

/-! ## 1. Parts that look -/

/-- **What is said of parts is put together as they are.** It holds of those that only look. -/
structure Composes (J : (α : Type) → Pass α → Prop) : Prop where
  pure : ∀ {α : Type} (a : α), J α (pure a)
  bind : ∀ {α β : Type} {m : Pass α} {f : α → Pass β}, J α m → (∀ a, J β (f a)) → J β (m >>= f)
  throw : ∀ {α : Type} (e : MatchError), J α (throw e)
  get : J Walker get
  read : J Setting read
  fetch : ∀ reader slot : Nat, J (Option Span) (fetch reader slot)
  judge : ∀ bucket body : Nat, J Bool (judge bucket body)
  whole : J Unit (note .wholeRead)

/-- It holds of going forward in the document. -/
structure Proceeds (J : (α : Type) → Pass α → Prop) : Prop extends Composes J where
  step : J Token step
  skipContainer : J Unit skipContainer

/-- It holds of going anywhere in the document. -/
structure Roams (J : (α : Type) → Pass α → Prop) : Prop extends Proceeds J where
  seek : ∀ position : Nat, J Unit (seek position)

theorem ite_of {p : Prop} [Decidable p] {m m' : Pass α} (hm : J α m) (hm' : J α m') :
    J α (if p then m else m') := by
  split
  · exact hm
  · exact hm'

namespace Composes

variable (h : Composes J)
include h

theorem discard {m : Pass α} (hm : J α m) : J Unit (discard m) := h.bind hm fun _ => h.pure ()

theorem forM {f : α → Pass PUnit} : ∀ {l : List α}, (∀ a ∈ l, J PUnit (f a)) → J PUnit (l.forM f)
  | [], _ => h.pure _
  | a :: rest, hf => by
    rw [List.forM_eq_forM, List.forM_cons]
    exact h.bind (hf a List.mem_cons_self) fun _ =>
      forM fun b hb => hf b (List.mem_cons_of_mem a hb)

theorem fail {e : MatchError} : J α (fail e) := h.throw e

theorem iterate {next : α → Pass (α ⊕ β)} (hn : ∀ a, J (α ⊕ β) (next a)) :
    ∀ (fuel : Nat) (a : α), J β (iterate next fuel a)
  | 0, _ => h.fail
  | fuel + 1, a => h.bind (hn a) fun result => by
    cases result with
    | inl a => exact iterate hn fuel a
    | inr b => exact h.pure b

theorem repeatedly {next : α → Pass (α ⊕ β)} (hn : ∀ a, J (α ⊕ β) (next a)) (a : α) :
    J β (repeatedly next a) := h.bind h.read fun s => h.iterate hn s.bound a

theorem unexpected {token : Token} {e : Expected} : J α (unexpected token e) := h.fail

theorem checkBucket {bucket : Nat} : J Unit (checkBucket bucket) :=
  h.bind h.get fun _ => ite_of h.fail (h.pure ())

theorem isUnknown {bucket : Nat} : J Bool (isUnknown bucket) :=
  h.bind h.checkBucket fun _ => h.bind h.get fun _ => h.pure _

theorem spanFrom {offset : Nat} : J Span (spanFrom offset) :=
  h.bind h.get fun _ => ite_of (h.pure _) h.fail

theorem slotAt {slot : Nat} : J (Option Span) (slotAt slot) :=
  h.bind h.get fun w => by
    cases w.slots[slot]? with
    | none => exact h.fail
    | some found => exact h.pure found

theorem bodyOf {bucket : Nat} : J Nat (bodyOf bucket) :=
  h.bind h.checkBucket fun _ => h.bind h.get fun _ => h.bind h.checkBucket fun _ => h.pure _

theorem settled : J Bool Pass.settled := h.bind h.read fun _ => h.bind h.get fun _ => h.pure _

theorem containerFrom {make : Bytes → Value} {token : Token} :
    J (Option Value) (Pass.containerFrom make token) :=
  h.bind h.spanFrom fun _ => h.bind h.get fun _ => h.pure _

/-! ## 2. What follows a value -/

theorem untilSettled {f : α → Pass Bool} :
    ∀ {l : List α}, (∀ a ∈ l, J Bool (f a)) → J Bool (Pass.untilSettled f l)
  | [], _ => h.pure false
  | a :: _, hf => h.bind (hf a List.mem_cons_self) fun _ =>
    ite_of (h.pure true) (untilSettled fun b hb => hf b (List.mem_cons_of_mem a hb))

theorem test {active : Value} {t : Test} (ht : ∀ b, J Unit (Pass.mark t.bucket b)) :
    J Unit (Pass.test active t) :=
  h.bind h.isUnknown fun _ => ite_of
    (h.bind (h.forM fun _ _ => h.discard (h.fetch _ _)) fun _ => h.bind h.get fun _ =>
      h.bind h.read fun _ => ht _)
    (h.pure ())

theorem testAll {active : Value} {tests : List Test}
    (ht : ∀ t ∈ tests, ∀ b, J Unit (Pass.mark t.bucket b)) : J Bool (Pass.testAll active tests) :=
  h.untilSettled fun t hm => h.bind (h.test (ht t hm)) fun _ => h.settled

theorem ifUnknown {bucket : Nat} {part : Pass Unit} (hp : J Unit part) :
    J Bool (Pass.ifUnknown bucket part) :=
  h.bind h.isUnknown fun _ => ite_of (h.bind hp fun _ => h.settled) (h.pure false)

theorem failedLoops {loops : List Runner}
    (hl : ∀ loop ∈ loops, ∀ b, J Unit (Pass.mark loop.bucket b)) :
    J Bool (Pass.failedLoops loops) :=
  h.bind (h.untilSettled fun loop hm => h.ifUnknown (hl loop hm false)) fun _ => h.settled

theorem unlessOf {kind : TokenKind} {token : Token} {part : Pass Bool} (hp : J Bool part) :
    J Bool (Pass.unlessOf kind token part) := ite_of (h.pure false) hp

theorem runCaptured {target : Operand} {loop : Runner}
    (hr : ∀ found, J Unit (Pass.runOver found loop)) : J Unit (Pass.runCaptured target loop) := by
  cases target with
  | slot _ => exact h.bind (h.fetch _ _) hr
  | literal _ | func _ _ | active => exact h.fail

theorem after {tests : List Test} {loops : List (Operand × Runner)}
    (ht : ∀ t ∈ tests, ∀ b, J Unit (Pass.mark t.bucket b))
    (hl : ∀ loop ∈ loops, ∀ found, J Unit (Pass.runOver found loop.2)) :
    J Unit (Pass.after tests loops) :=
  h.bind (h.testAll ht) fun _ => ite_of (h.pure ())
    (h.discard (h.untilSettled fun loop hm => h.ifUnknown (h.runCaptured (hl loop hm))))

theorem missingAll {children : List (String × Handler)}
    (hc : ∀ child ∈ children, J Unit child.2.missing) : J Bool (Pass.missingAll children) :=
  h.untilSettled fun child hm => h.bind (hc child hm) fun _ => h.settled

section Parts

variable {tests : List Test} {loops : List Runner} {children : List (String × Handler)}
  {waiting : Pass Unit} (ht : ∀ t ∈ tests, ∀ b, J Unit (Pass.mark t.bucket b))
  (hl : ∀ loop ∈ loops, ∀ b, J Unit (Pass.mark loop.bucket b))
  (hc : ∀ child ∈ children, J Unit child.2.missing) (hw : J Unit waiting)
include ht hl hc hw

theorem finishValue {slot : Option Nat} {token : Token} {v : Value}
    (hs : J Unit (capture token v slot)) :
    J Unit (Pass.finishValue slot tests loops children waiting token v) :=
  h.bind hs fun _ => h.bind (h.testAll ht) fun _ => ite_of (h.pure ())
    (h.bind (h.unlessOf (h.failedLoops hl)) fun _ => ite_of (h.pure ())
      (h.bind (h.unlessOf (h.missingAll hc)) fun _ => ite_of (h.pure ()) hw))

theorem resolveMissing : J Unit (Pass.resolveMissing tests loops children waiting) :=
  h.bind (h.testAll ht) fun _ => ite_of (h.pure ())
    (h.bind (h.failedLoops hl) fun _ => ite_of (h.pure ())
      (h.bind (h.missingAll hc) fun _ => ite_of (h.pure ()) hw))

end Parts

end Composes

/-! ## 3. Reading -/

namespace Proceeds

variable (h : Proceeds J)
include h

theorem skipValue {token : Token} : J Unit (skipValue token) :=
  ite_of h.skipContainer (ite_of (h.pure ()) h.unexpected)

theorem passAt {position : Nat} (hs : J Unit (seek position)) : J Unit (passAt position) :=
  h.bind hs fun _ => h.bind h.step fun _ => h.skipValue

theorem passRest {early : Bool} {first : Token} (hs : J Unit (seek first.offset)) :
    J Unit (passRest early first) := ite_of (h.passAt hs) (h.pure ())

theorem passArray {decider : Option Token}
    (hs : ∀ first, decider = some first → J Unit (seek first.offset)) :
    J Unit (passArray decider) := by
  cases decider with
  | none => exact h.pure ()
  | some first => exact h.bind (h.passAt (hs first rfl)) fun _ => h.skipContainer

theorem nextPart {closing : TokenKind} {e : Expected} :
    J (Option Token) (nextPart closing e) :=
  h.bind h.step fun _ => ite_of (h.bind h.step fun _ => h.pure _)
    (ite_of (h.pure none) h.unexpected)

theorem memberStart {key : Token} : J Token (memberStart key) :=
  ite_of (h.bind h.step fun _ => ite_of h.step h.unexpected) h.unexpected

theorem opening : J Token opening := h.bind h.step fun _ => ite_of h.fail (h.pure _)

theorem closing : J Unit closing := h.bind h.step fun _ => ite_of (h.pure ()) h.fail

theorem closedContainer {make : Bytes → Value} {token : Token} :
    J (Option Value) (Pass.closedContainer make token) :=
  h.bind h.skipContainer fun _ => h.containerFrom

end Proceeds

/-! ## 4. Handlers -/

/-- It holds of everything that a handler does. -/
structure Handler.All (J : (α : Type) → Pass α → Prop) (handler : Handler) : Prop where
  read : ∀ token, J (Option Value) (handler.read token)
  finish : ∀ token v, J Unit (handler.finish token v)
  missing : J Unit handler.missing

theorem Handler.All.imp {J' : (α : Type) → Pass α → Prop} {handler : Handler}
    (h : handler.All J) (hj : ∀ (α : Type) (m : Pass α), J α m → J' α m) : handler.All J' :=
  ⟨fun token => hj _ _ (h.read token), fun token v => hj _ _ (h.finish token v),
    hj _ _ h.missing⟩

/-- The handler of a member is the one of a child. -/
theorem Pass.mem_of_handlerOf {children : List (String × Handler)} {key : Token} {handler : Handler}
    (h : Pass.handlerOf? children key = some handler) : ∃ child ∈ children, child.2 = handler := by
  unfold Pass.handlerOf? at h
  split at h
  · obtain ⟨child, hm, hc⟩ := Option.map_eq_some_iff.mp h
    exact ⟨child, List.mem_of_find?_eq_some hm, hc⟩
  · cases h

theorem Composes.container (h : Composes J) {make : Bytes → Value} {token : Token}
    {inside : Pass Unit} (hi : J Unit inside) :
    J (Option Value) (Pass.container make token inside) :=
  h.bind hi fun _ => h.bind h.settled fun _ => ite_of (h.pure none) h.containerFrom

theorem Composes.handle (h : Composes J) {handler : Handler} (hh : handler.All J) (token : Token) :
    J Unit (handler.handle token) :=
  h.bind (hh.read token) fun result => by
    cases result with
    | some v => exact hh.finish token v
    | none => exact h.pure ()

namespace Proceeds

variable (h : Proceeds J)
include h

/-- The members of an object, when it holds of each member. -/
theorem members {children : List (String × Handler)}
    (hm : ∀ key, J (Token ⊕ Bool) (Pass.member children key))
    (hc : ∀ child ∈ children, J Unit child.2.missing) : J Unit (Pass.members children) := by
  have missing := h.discard (h.missingAll hc)
  exact h.bind h.step fun key => ite_of missing
    (h.bind (h.repeatedly hm key) fun _ => ite_of (h.pure ()) missing)

/-- A loop over the array that is being read, when it holds of going back to its start. -/
theorem runInline {start : Nat} {loop : Runner} (hs : J Unit (seek start)) (hl : J Unit loop.run) :
    J Bool (Pass.runInline start loop) :=
  h.bind hs fun _ => h.bind h.isUnknown fun _ =>
    ite_of (h.bind hl fun _ => h.settled) (h.bind h.skipContainer fun _ => h.pure false)

end Proceeds

namespace Roams

variable (h : Roams J)
include h

section Object

variable {children : List (String × Handler)} (hc : ∀ child ∈ children, child.2.All J)
include hc

theorem memberValue {key first : Token} : J Bool (Pass.memberValue children key first) := by
  unfold Pass.memberValue
  split
  · next handler hfind =>
    obtain ⟨child, hm, rfl⟩ := Pass.mem_of_handlerOf hfind
    exact h.bind (h.handle (hc child hm) first) fun _ => h.settled
  · exact h.bind h.skipValue fun _ => h.pure false

theorem member (key : Token) : J (Token ⊕ Bool) (Pass.member children key) :=
  h.bind h.memberStart fun _ => h.bind (h.memberValue hc) fun _ =>
    ite_of (h.pure _) (h.bind h.nextPart fun next => by
      cases next with
      | some key => exact h.pure _
      | none => exact h.pure _)

theorem members : J Unit (Pass.members children) :=
  h.toProceeds.members (h.member hc) fun child hm => (hc child hm).missing

end Object

/-- **The elements of an array**, when it holds of turning to one and of the body. -/
theorem elements {bucket bodyBucket : Nat} {mode : LoopMode} {locals : List Nat} {body : Handler}
    (hb : body.All J) (ht : ∀ first, J Unit (beginElement bucket locals first)) :
    J Verdict (Pass.elements bucket bodyBucket mode locals body) := by
  have element : ∀ turn : Token × Bool, J ((Token × Bool) ⊕ Verdict)
      (Pass.element bucket bodyBucket mode locals body turn) := fun turn => by
    obtain ⟨first, anySatisfied⟩ := turn
    refine h.bind (ht first) fun _ => h.bind (h.handle hb first) fun _ =>
      h.bind h.settled fun _ => h.bind (h.judge _ _) fun satisfied => ?_
    cases mode.decision satisfied with
    | some answer => exact h.pure _
    | none =>
      refine h.bind (h.passRest (h.seek _)) fun _ => h.bind h.nextPart fun next => ?_
      cases next with
      | some next => exact h.pure _
      | none => exact h.pure _
  exact h.bind h.step fun first => ite_of (h.pure _) (h.repeatedly element _)

theorem runLoops {loops : List Runner} (hl : ∀ loop ∈ loops, J Unit loop.run) :
    J Unit (Pass.runLoops loops) :=
  h.bind h.get fun _ => h.discard (h.untilSettled fun loop hm =>
    h.toProceeds.runInline (h.seek _) (hl loop hm))

/-- **The handler of a node**, when it holds of all that is done to marks and slots. -/
theorem ofParts {slot : Option Nat} {tests afterTests : List Test} {loops : List Runner}
    {children : List (String × Handler)} {afterLoops : List (Operand × Runner)}
    (hs : ∀ token v, J Unit (capture token v slot))
    (ht : ∀ t ∈ tests ++ afterTests, ∀ b, J Unit (Pass.mark t.bucket b))
    (hm : ∀ loop ∈ loops, ∀ b, J Unit (Pass.mark loop.bucket b))
    (hl : ∀ loop ∈ loops, J Unit loop.run) (hc : ∀ child ∈ children, child.2.All J)
    (ha : ∀ loop ∈ afterLoops, ∀ found, J Unit (Pass.runOver found loop.2)) :
    (Handler.ofParts slot tests loops children afterTests afterLoops).All J := by
  have own : ∀ t ∈ tests, ∀ b, J Unit (Pass.mark t.bucket b) :=
    fun t hmem => ht t (List.mem_append_left _ hmem)
  have missing : ∀ child ∈ children, J Unit child.2.missing := fun child hmem => (hc child hmem).missing
  have waiting : J Unit (Pass.after afterTests afterLoops) :=
    h.after (fun t hmem => ht t (List.mem_append_right _ hmem)) ha
  refine ⟨fun token => ?_, fun token v => h.finishValue own hm missing waiting (hs token v),
    h.resolveMissing own hm missing waiting⟩
  show J (Option Value) (Pass.readValue loops children token)
  unfold Pass.readValue
  split
  · exact ite_of h.closedContainer (h.container (h.members hc))
  · exact ite_of h.closedContainer (h.container (h.runLoops hl))
  · exact ite_of (h.pure _) h.unexpected

theorem document {root : Handler} (hr : root.All J) : J Unit (Pass.document root) :=
  h.bind h.opening fun token => h.bind (hr.read token) fun result => by
    cases result with
    | some v => exact h.bind h.whole fun _ => h.bind (hr.finish token v) fun _ => h.closing
    | none => exact h.pure ()

end Roams

end Sift
