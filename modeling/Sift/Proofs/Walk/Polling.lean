import Sift.Proofs.Walk.Both
import Sift.Proofs.Plan.Fits

/-!
# Walks that ask whether they are settled

`Polls` says of two parts of walks that begin unsettled that they come to the same. Then the `Pass`
ends unsettled where the `Walk` ends, and settled where the `Walk` halts, and the last thing that has
been done then is the mark that settles it. So whoever asks is told the truth, and returns with
nothing done since.

`Silent` parts tell nobody, `Tells` is for those that say whether they have settled the walk.
`Node.polls` shows that the two handlers of every node come to the same, by induction over the node.
-/

namespace Sift

open Resolution

variable {α β γ δ : Type} {s : Setting} {w w' : Walker}

/-! ## 1. Parts that begin unsettled -/

/-- What is the same for the whole of two walks: how they are set, their tree, and what is true of
    the account that they give. Plain things may be added to it. -/
structure Ground where
  setting : Setting
  tree : Tree
  told : List Event → Prop
  plain : ∀ e l, e.Plain → told l → told (e :: l)

variable {g : Ground} {stall : Option Nat}

theorem Ground.told_of_calm (h : g.told w.trail) (hc : w.Calm w') : g.told w'.trail := by
  obtain ⟨es, ht, he⟩ := hc.trail
  rw [ht]
  clear ht
  induction es with
  | nil => exact h
  | cons e es ih =>
    exact g.plain _ _ (he e List.mem_cons_self) (ih fun e' hm => he e' (List.mem_cons_of_mem e hm))

/-- The walker is at a place of its tree. -/
structure Walker.At (g : Ground) (stall : Option Nat) (w : Walker) : Prop where
  tree : w.state.tree = g.tree
  stall : w.state.stall = stall
  told : g.told w.trail

/-- There is more to know. -/
def Walker.Open (g : Ground) (stall : Option Nat) (w : Walker) : Prop :=
  w.At g stall ∧ g.setting.isSettled w.state = false

/-- There is no more to know since the last thing that has been done, which is a mark. -/
structure Walker.Over (g : Ground) (stall : Option Nat) (w : Walker) : Prop where
  tree : w.state.tree = g.tree
  stalled : w.state.stall = stall
  settled : g.setting.isSettled w.state = true
  told : ∃ b v rest, w.trail = .marked b v stall.isNone :: rest ∧ g.told rest

theorem Walker.At.of_calm (h : w.At g stall) (hc : w.Calm w') : w'.At g stall :=
  ⟨by rw [hc.state, h.tree], by rw [hc.state, h.stall], Ground.told_of_calm h.told hc⟩

theorem Walker.Open.of_calm (h : w.Open g stall) (hc : w.Calm w') : w'.Open g stall :=
  ⟨h.1.of_calm hc, by rw [hc.state, h.2]⟩

/-- Inside a loop nothing is said of the document. -/
theorem Walker.Over.at_loop {b : Nat} (h : w.Over g (some b)) : w.At g (some b) := by
  obtain ⟨_, _, rest, ht, hr⟩ := h.told
  exact ⟨h.tree, h.stalled, by rw [ht]; exact g.plain _ _ rfl hr⟩

/-- **Two parts that begin unsettled come to the same.** Then the second ends unsettled where the
    first ends, and settled where it halts. -/
def Polls (g : Ground) (stall : Option Nat) (m : Walk α) (m' : Pass β) (Q : α → β → Prop)
    (E : β → Prop) : Prop :=
  ∀ w, w.Open g stall → Both g.setting w m m' (fun a b w₁ => Q a b ∧ w₁.Open g stall)
    (fun b w₁ => E b ∧ w₁.Over g stall) fun w₁ => g.told w₁.trail

/-- The second part tells nothing. -/
def Silent (g : Ground) (stall : Option Nat) (m : Walk Unit) (m' : Pass Unit) : Prop :=
  Polls g stall m m' (fun _ _ => True) fun _ => True

/-- The second part tells whether the walk is settled. -/
def Tells (g : Ground) (stall : Option Nat) (m : Walk Unit) (m' : Pass Bool) : Prop :=
  Polls g stall m m' (fun _ b => b = false) fun b => b = true

section Polls

variable {m : Walk α} {m' : Pass β} {Q : α → β → Prop} {E : β → Prop}

theorem outcome_settled {b : Bool} (h : s.isSettled w.state = b) :
    Pass.settled.outcome s w = (.ok b, w) := by
  rw [← h]
  rfl

/-- A part that marks nothing leaves a walk open. -/
theorem Calm.polls {m : Walk α} {m' : Pass α} (h : Calm m m') :
    Polls g stall m m' (fun a b => a = b) fun _ => False := fun w hw =>
  (h g.setting w).mono (fun _ _ _ h => ⟨h.1, hw.of_calm h.2⟩) (fun _ _ h => h.elim)
    fun _ h => Ground.told_of_calm hw.1.told h

theorem Polls.mono {Q' : α → β → Prop} {E' : β → Prop} (h : Polls g stall m m' Q E)
    (hq : ∀ a b, Q a b → Q' a b) (he : ∀ b, E b → E' b) : Polls g stall m m' Q' E' :=
  fun w hw => (h w hw).mono (fun _ _ _ h => ⟨hq _ _ h.1, h.2⟩) (fun _ _ h => ⟨he _ h.1, h.2⟩)
    fun _ h => h

theorem Polls.bind {f : α → Walk γ} {f' : β → Pass δ} {Q' : γ → δ → Prop} {E' : δ → Prop}
    (h : Polls g stall m m' Q E) (hf : ∀ a b, Q a b → Polls g stall (f a) (f' b) Q' E')
    (he : ∀ b, E b → ∃ c, E' c ∧ ∀ w, w.Over g stall →
      (f' b).outcome g.setting w = (.ok c, w)) :
    Polls g stall (m >>= f) (m' >>= f') Q' E' := fun w hw =>
  (h w hw).bind (fun a b w₁ hq => hf a b hq.1 w₁ hq.2) fun b w₁ hb => by
    obtain ⟨c, hc, ho⟩ := he b hb.1
    exact ⟨c, ho w₁ hb.2, hc, hb.2⟩

/-- A part that marks nothing, and then another. -/
theorem Calm.bind_polls {m : Walk γ} {m' : Pass γ} {f : γ → Walk α} {f' : γ → Pass β}
    (h : Calm m m') (hf : ∀ a, Polls g stall (f a) (f' a) Q E) :
    Polls g stall (m >>= f) (m' >>= f') Q E :=
  h.polls.bind (fun a _ hab => hab ▸ hf a) fun _ he => he.elim

theorem polls_pure {a : α} {b : β} (h : Q a b) : Polls g stall (pure a) (pure b) Q E :=
  fun _ hw => both_pure ⟨h, hw⟩

theorem polls_fail {e : MatchError} : Polls g stall (Walk.fail e) (Walk.fail e) Q E :=
  fun _ hw => both_fail hw.1.told

theorem Calm.silent {m : Walk Unit} {m' : Pass Unit} (h : Calm m m') : Silent g stall m m' :=
  h.polls.mono (fun _ _ _ => trivial) fun _ he => he.elim

/-- **Asking after a part** tells whether it has settled the walk. -/
theorem tells_ask {m : Walk Unit} {Q : Unit → β → Prop} (h : Polls g stall m m' Q E) :
    Tells g stall m (m' >>= fun _ => Pass.settled) := fun w hw => by
  rw [← bind_pure m]
  exact (h w hw).bind (fun _ _ w₁ hq => ⟨false, outcome_settled hq.2.2, rfl, hq.2⟩)
    fun _ w₁ he => ⟨true, outcome_settled he.2.settled, rfl, he.2⟩

/-- **What comes next unless the walk is settled.** -/
theorem Tells.next {m : Walk Unit} {m' : Pass Bool} {f : Walk α} {f' : Pass β} {b : β}
    (h : Tells g stall m m') (hf : Polls g stall f f' Q E) (hb : E b) :
    Polls g stall (m >>= fun _ => f) (m' >>= fun r => if r = true then pure b else f') Q E :=
  Polls.bind h (fun _ r hr => by simpa only [hr, if_neg Bool.false_ne_true] using hf) fun r hr =>
    ⟨b, hb, fun w _ => by rw [if_pos hr]; rfl⟩

theorem Tells.discard {m : Walk Unit} {m' : Pass Bool} (h : Tells g stall m m') :
    Silent g stall m (discard m') := by
  rw [← bind_pure m]
  exact Polls.bind h (fun _ _ _ => polls_pure trivial) fun _ _ => ⟨(), trivial, fun _ _ => rfl⟩

/-- **Thing after thing**, until one settles the walk. -/
theorem tells_untilSettled {f : β → Walk PUnit} {f' : γ → Pass Bool} {k : α → β} {k' : α → γ} :
    ∀ {l : List α}, (∀ a ∈ l, Tells g stall (f (k a)) (f' (k' a))) →
      Tells g stall ((l.map k).forM f) (Pass.untilSettled f' (l.map k'))
  | [], _ => polls_pure rfl
  | a :: rest, h => by
    rw [List.map_cons, List.map_cons, List.forM_eq_forM, List.forM_cons, Pass.untilSettled]
    exact Tells.next (h a List.mem_cons_self)
      (tells_untilSettled fun b hb => h b (List.mem_cons_of_mem a hb)) rfl

/-- A part is caught where it halts. Whether it has halted can be asked. -/
theorem Silent.settles {m : Walk Unit} {m' : Pass Unit} (h : Silent g stall m m')
    (hw : w.Open g stall) : Both g.setting w (Walk.settles m) m'
      (fun early _ w₁ => if early then w₁.Over g stall else w₁.Open g stall) (fun _ _ => False)
      fun w₁ => g.told w₁.trail := by
  have hm := h w hw
  unfold Both at hm ⊢
  unfold Walk.settles
  rw [Walk.outcome_bind, Walk.outcome_observing]
  split at hm
  · next heq =>
    obtain ⟨b, ho, -, hw₁⟩ := hm
    simp only [heq]
    exact ⟨b, ho, hw₁⟩
  · next heq =>
    obtain ⟨b, ho, -, hw₁⟩ := hm
    simp only [heq]
    exact ⟨b, ho, hw₁⟩
  · next heq =>
    simp only [heq]
    exact hm

/-- The reading of an element is caught, and what follows is told whether it has halted. -/
theorem Silent.caught {b : Nat} {m : Walk Unit} {m' : Pass Unit} {f : Bool → Walk α}
    {f' : Bool → Pass β} {Q : α → β → Walker → Prop} {E : β → Walker → Prop}
    (h : Silent g (some b) m m') (hw : w.Open g (some b))
    (hf : ∀ early w₁, w₁.At g (some b) →
      Both g.setting w₁ (f early) (f' early) Q E fun w₁ => g.told w₁.trail) :
    Both g.setting w (Walk.settles m >>= f) (m' >>= fun _ => Pass.settled >>= f') Q E
      fun w₁ => g.told w₁.trail := by
  refine (h.settles hw).next fun early _ w₁ hq => ?_
  unfold Both
  rw [Walk.outcome_bind]
  cases early with
  | true =>
    rw [outcome_settled hq.settled]
    exact hf true w₁ hq.at_loop
  | false =>
    rw [outcome_settled hq.2]
    exact hf false w₁ hq.1

end Polls

/-! ## 2. Marks and tests -/

/-- Marking a bucket keeps the place in the tree. -/
theorem Walker.At.of_mark {b : Nat} {v : Bool} {state : State} (h : w.At g stall)
    (hm : w.state.mark b v = .ok state) : state.tree = g.tree ∧ state.stall = stall :=
  ⟨(State.shape_mark hm).1.trans h.tree, (State.stall_mark hm).trans h.stall⟩

/-- **A mark** is the one place where a walk is settled. -/
theorem both_mark {b : Nat} {v : Bool} (h : w.At g stall) :
    Both g.setting w (Walk.mark b v) (Pass.mark b v) (fun _ _ w₁ => True ∧ w₁.Open g stall)
      (fun _ w₁ => True ∧ w₁.Over g stall) fun w₁ => g.told w₁.trail := by
  refine Both.next ((Calm.checkBucket g.setting w).mono (fun _ _ _ hq => h.of_calm hq.2)
    (fun _ _ he => he) fun _ hf => Ground.told_of_calm h.told hf) fun _ _ w₁ h₁ => ?_
  refine Both.next (Q := fun a b w₂ => a = w₁ ∧ b = w₁ ∧ w₂ = w₁) ⟨w₁, rfl, rfl, rfl, rfl⟩
    fun a b w₂ hw => ?_
  obtain ⟨rfl, rfl, rfl⟩ := hw
  cases hm : w₂.state.mark b v with
  | error d => exact ⟨rfl, h₁.told⟩
  | ok state =>
    obtain ⟨htree, hstall⟩ := h₁.of_mark hm
    unfold Both
    simp only [Walk.outcome_bind, outcome_read, outcome_modify, outcome_note, hstall]
    cases hs : g.setting.isSettled state with
    | false => exact ⟨(), rfl, trivial, ⟨htree, hstall, g.plain _ _ rfl h₁.told⟩, hs⟩
    | true => exact ⟨(), rfl, trivial, htree, hstall, hs, b, v, _, rfl, h₁.told⟩

theorem silent_mark {b : Nat} {v : Bool} : Silent g stall (Walk.mark b v) (Pass.mark b v) :=
  fun _ hw => both_mark hw.1

/-- A test is made where its bucket is unknown. -/
theorem silent_test {v : Value} {test : Test} :
    Silent g stall (Walk.test v test) (Pass.test v test) := by
  refine Calm.isUnknown.bind_polls fun u => ?_
  cases u with
  | false => exact polls_pure trivial
  | true =>
    refine (Calm.forM (fun slot => Calm.fetch.bind fun _ => .pure) _).bind_polls fun _ => ?_
    exact Calm.get.bind_polls fun w => Calm.read.bind_polls fun s => silent_mark

theorem tells_testAll {v : Value} {tests : List Test} :
    Tells g stall (tests.forM (Walk.test v)) (Pass.testAll v tests) := by
  have h : Tells g stall ((tests.map id).forM (Walk.test v)) (Pass.testAll v (tests.map id)) :=
    tells_untilSettled fun _ _ => tells_ask silent_test
  rwa [List.map_id] at h

/-- Something is done where a bucket is unknown. -/
theorem tells_ifUnknown {b : Nat} {m : Walk Unit} {m' : Pass Unit} (h : Silent g stall m m') :
    Tells g stall (Walk.isUnknown b >>= fun u => if u = true then m else pure ())
      (Pass.ifUnknown b m') := by
  refine Calm.isUnknown.bind_polls fun u => ?_
  cases u with
  | false => exact polls_pure rfl
  | true => exact tells_ask h

/-! ## 3. Nodes and loops -/

/-- What is shown of a node: its two handlers come to the same. -/
structure Node.Polls (g : Ground) (stall : Option Nat) (n : Node) : Prop where
  read : ∀ token, Sift.Polls g stall (n.halting.read token) (n.handler.read token)
    (fun v r => r = some v) fun r => r = none
  finish : ∀ token v, Silent g stall (n.halting.finish token v) (n.handler.finish token v)
  missing : Silent g stall n.halting.missing n.handler.missing

/-- What is shown of a loop: its two runners come to the same. -/
def Loop.Polls (g : Ground) (stall : Option Nat) (l : Loop) : Prop :=
  Silent g stall l.halting.run l.runner.run

theorem Node.Polls.handle {n : Node} (h : n.Polls g stall) (token : Token) :
    Silent g stall (n.halting.handle token) (n.handler.handle token) :=
  Sift.Polls.bind (h.read token)
    (fun v r hr => by
      rw [hr]
      exact h.finish token v)
    fun r hr => ⟨(), trivial, fun _ _ => by
      rw [hr]
      rfl⟩

theorem runners_eq : ∀ loops : List Loop, runners loops = loops.map Loop.runner
  | [] => rfl
  | _ :: rest => by rw [runners, runners_eq rest, List.map_cons]

theorem handlers_eq : ∀ children : List (String × Node),
    handlers children = children.map fun c => (c.1, c.2.handler)
  | [] => rfl
  | (_, _) :: rest => by rw [handlers, handlers_eq rest, List.map_cons]

theorem capturedRunners_eq : ∀ loops : List Loop,
    capturedRunners loops = loops.map fun l => (l.target, l.runner)
  | [] => rfl
  | _ :: rest => by rw [capturedRunners, capturedRunners_eq rest, List.map_cons]

/-- The handler of a node, put together from those of its parts. -/
theorem Node.handler_eq (n : Node) :
    n.handler = .ofParts n.slot n.tests (n.loops.map Loop.runner)
      (n.children.map fun c => (c.1, c.2.handler)) n.afterTests
      (n.afterLoops.map fun l => (l.target, l.runner)) := by
  cases n
  rw [handler, runners_eq, handlers_eq, capturedRunners_eq]

theorem Loop.runner_eq (l : Loop) :
    l.runner = ⟨l.bucket, Pass.runLoop l.bucket l.mode l.locals l.body.handler⟩ := by
  cases l
  rw [runner]

theorem Loop.runner_bucket (l : Loop) : l.runner.bucket = l.bucket := by rw [runner_eq]

/-! ## 4. Objects -/

section Objects

variable {children : List (String × Node)}

theorem passHandlerOf?_eq (children : List (String × Node)) (key : Token) :
    Pass.handlerOf? (children.map fun c => (c.1, c.2.handler)) key =
      (Walk.nameOf? key).bind fun name =>
        (children.find? (·.1 = name)).map fun c => c.2.handler := by
  unfold Pass.handlerOf?
  cases Walk.nameOf? key with
  | none => rfl
  | some name =>
    simp only [Option.bind_some, List.find?_map, Option.map_map]
    rfl

/-- Both find the same child. -/
theorem handlerOf?_cases (children : List (String × Node)) (key : Token) :
    (Walk.handlerOf? (children.map fun c => (c.1, c.2.halting)) key = none ∧
      Pass.handlerOf? (children.map fun c => (c.1, c.2.handler)) key = none) ∨
    ∃ c ∈ children, Walk.handlerOf? (children.map fun c => (c.1, c.2.halting)) key =
        some c.2.halting ∧
      Pass.handlerOf? (children.map fun c => (c.1, c.2.handler)) key = some c.2.handler := by
  rw [handlerOf?_eq, passHandlerOf?_eq]
  cases Walk.nameOf? key with
  | none => exact .inl ⟨rfl, rfl⟩
  | some name =>
    simp only [Option.bind_some]
    cases hf : children.find? (·.1 = name) with
    | none => exact .inl ⟨rfl, rfl⟩
    | some c => exact .inr ⟨c, List.mem_of_find?_eq_some hf, rfl, rfl⟩

variable (h : ∀ c ∈ children, c.2.Polls g stall)
include h

theorem tells_missingAll :
    Tells g stall (Walk.missingAll (children.map fun c => (c.1, c.2.halting)))
      (Pass.missingAll (children.map fun c => (c.1, c.2.handler))) :=
  tells_untilSettled fun c hc => tells_ask (h c hc).missing

theorem tells_memberValue (key first : Token) :
    Tells g stall (Walk.memberValue (children.map fun c => (c.1, c.2.halting)) key first)
      (Pass.memberValue (children.map fun c => (c.1, c.2.handler)) key first) := by
  unfold Walk.memberValue Pass.memberValue
  rcases handlerOf?_cases children key with ⟨h₁, h₂⟩ | ⟨c, hc, h₁, h₂⟩
  · rw [h₁, h₂, ← bind_pure (Walk.skipValue first)]
    exact Calm.skipValue.bind_polls fun _ => polls_pure rfl
  · rw [h₁, h₂]
    exact tells_ask ((h c hc).handle first)

theorem polls_member (key : Token) :
    Polls g stall (Walk.member (children.map fun c => (c.1, c.2.halting)) key)
      (Pass.member (children.map fun c => (c.1, c.2.handler)) key)
      (fun r r' => (∃ key, r = .inl key ∧ r' = .inl key) ∨ r = .inr () ∧ r' = .inr false)
      fun r' => r' = .inr true := by
  refine Calm.memberStart.bind_polls fun first => ?_
  refine Tells.next (tells_memberValue h key first) (Calm.nextPart.bind_polls fun next => ?_) rfl
  cases next with
  | some key => exact polls_pure (.inl ⟨key, rfl, rfl⟩)
  | none => exact polls_pure (.inr ⟨rfl, rfl⟩)

theorem silent_members :
    Silent g stall (Walk.members (children.map fun c => (c.1, c.2.halting)))
      (Pass.members (children.map fun c => (c.1, c.2.handler))) := by
  have hmissing := (tells_missingAll h).discard
  refine Calm.step.bind_polls fun key => ?_
  split
  · exact hmissing
  · refine Tells.next ?_ hmissing trivial
    intro w hw
    refine both_repeatedly (both_iterate (I := fun _ w => w.Open g stall)
      (fun key w hw => (polls_member h key w hw).mono ?_ ?_ fun _ h => h)
      (fun _ _ hw => hw.1.told) _ hw)
    · rintro r r' w₁ ⟨⟨key, rfl, rfl⟩ | ⟨rfl, rfl⟩, hw₁⟩
      · exact .inl ⟨key, rfl, rfl, hw₁⟩
      · exact .inr ⟨(), false, rfl, rfl, rfl, hw₁⟩
    · rintro r' w₁ ⟨rfl, hw₁⟩
      exact ⟨true, rfl, rfl, hw₁⟩

end Objects

/-! ## 5. Loops -/

/-- **An element begins unsettled**: nothing is known of the body of the loop. -/
theorem both_beginElement {b : Nat} {locals : List Nat} {first : Token}
    (hb : g.tree.isBelow b (g.tree.node b).left = true) (h : w.At g (some b)) :
    Both g.setting w (Walk.beginElement b locals first) (Walk.beginElement b locals first)
      (fun _ _ w₁ => w₁.Open g (some b)) (fun _ _ => False) fun w₁ => g.told w₁.trail := by
  refine Both.next (Q := fun _ _ w₁ => w₁.Open g (some b))
    ⟨(), rfl, ⟨h.tree, h.stall, h.told⟩, ?_⟩ fun _ _ w₁ hw₁ => ?_
  · have hmark : (w.state.resetBelow b).get (g.tree.node b).left = .unknown :=
      State.get_resetBelow_of_below (by rw [h.tree, hb])
    show g.setting.isSettled (w.state.resetBelow b) = false
    have htree : (w.state.resetBelow b).tree = g.tree := h.tree
    have hstall : (w.state.resetBelow b).stall = some b := h.stall
    simp only [Setting.isSettled, State.isSettled, State.isResolved, State.isUnknown, hstall,
      htree, hmark]
    rfl
  · have hcalm : Calm (do
        locals.forM Walk.release
        let w ← get
        Walk.note (.began b first w.state.marks w.slots)) (do
        locals.forM Walk.release
        let w ← get
        Walk.note (.began b first w.state.marks w.slots)) :=
      (Calm.forM (fun _ => Calm.release) locals).bind fun _ => Calm.get.bind fun _ =>
        Calm.note (by trivial)
    exact (hcalm g.setting w₁).mono (fun _ _ _ hq => hw₁.of_calm hq.2) (fun _ _ he => he)
      fun _ hf => Ground.told_of_calm hw₁.1.told hf

/-- Inside a loop both parts come to the same, and the walk is settled for no longer than an
    element. -/
def Stays (g : Ground) (b : Nat) (m : Walk α) (m' : Pass α) : Prop :=
  ∀ w, w.At g (some b) → Both g.setting w m m' (fun a a' w₁ => a = a' ∧ w₁.At g (some b))
    (fun _ _ => False) fun w₁ => g.told w₁.trail

theorem Calm.stays {b : Nat} {m : Walk α} {m' : Pass α} (h : Calm m m') : Stays g b m m' :=
  fun w hw => (h g.setting w).mono (fun _ _ _ h => ⟨h.1, hw.of_calm h.2⟩) (fun _ _ h => h)
    fun _ h => Ground.told_of_calm hw.told h

theorem Stays.bind {b : Nat} {m : Walk α} {m' : Pass α} {f : α → Walk β} {f' : α → Pass β}
    (h : Stays g b m m') (hf : ∀ a, Stays g b (f a) (f' a)) :
    Stays g b (m >>= f) (m' >>= f') := fun w hw =>
  (h w hw).next fun a _ w₁ hq => hq.1 ▸ hf a w₁ hq.2

section Loops

variable {l : Loop} (hb : g.tree.isBelow l.bucket (g.tree.node l.bucket).left = true)
  (h : l.body.Polls g (some l.bucket))
include hb h

theorem stays_element (body : Nat) (mode : LoopMode) (locals : List Nat) :
    ∀ a, Stays g l.bucket (Walk.element l.bucket body mode locals l.body.halting a)
      (Pass.element l.bucket body mode locals l.body.handler a)
  | (first, anySatisfied) => fun w hw => by
    refine (both_beginElement hb hw).next fun _ _ w₁ hw₁ => ?_
    refine Silent.caught (h.handle first) hw₁ fun early w₂ hw₂ => ?_
    refine Calm.stays (Calm.judge.bind fun satisfied => ?_) w₂ hw₂
    cases mode.decision satisfied with
    | some answer => exact .pure
    | none =>
      refine Calm.passRest.bind fun _ => Calm.nextPart.bind fun next => ?_
      cases next with
      | some next => exact .pure
      | none => exact .pure

theorem stays_elements (body : Nat) (mode : LoopMode) (locals : List Nat) :
    Stays g l.bucket (Walk.elements l.bucket body mode locals l.body.halting)
      (Pass.elements l.bucket body mode locals l.body.handler) := by
  refine Calm.step.stays.bind fun first => ?_
  split
  · exact Calm.pure.stays
  · intro w hw
    refine both_repeatedly (both_iterate (I := fun _ w => w.At g (some l.bucket))
      (fun a w hw => (stays_element hb h body mode locals a w hw).mono ?_ ?_ fun _ h => h)
      (fun _ _ hw => hw.told) _ hw)
    · rintro (a | v) _ w₁ ⟨rfl, hw₁⟩
      · exact .inl ⟨a, rfl, rfl, hw₁⟩
      · exact .inr ⟨v, v, rfl, rfl, rfl, hw₁⟩
    · exact fun _ _ he => he.elim

/-- **A loop** leaves the stall as it was, and then marks its bucket. -/
theorem Loop.polls : l.Polls g stall := fun w hw => by
  rw [Loop.halting_eq, Loop.runner_eq]
  refine Both.next (Q := fun a b w₁ => a = stall ∧ b = stall ∧ w₁.At g (some l.bucket))
    ⟨w.state.stall, rfl, hw.1.stall, hw.1.stall, hw.1.tree, rfl, hw.1.told⟩
    fun _ _ w₁ hq => ?_
  obtain ⟨hf, hs, hw₁⟩ := hq
  rw [hf, hs]
  refine (Calm.bodyOf.stays w₁ hw₁).next fun body _ w₂ hq => ?_
  obtain ⟨rfl, hw₂⟩ := hq
  refine (stays_elements hb h body l.mode l.locals w₂ hw₂).next fun verdict _ w₃ hq => ?_
  obtain ⟨rfl, hw₃⟩ := hq
  refine Both.next (Q := fun _ _ w₄ => w₄.At g stall) ⟨(), rfl, hw₃.tree, rfl, hw₃.told⟩
    fun _ _ w₄ hw₄ => ?_
  -- The mark may settle the walk that the loop is part of.
  refine (both_mark hw₄).bind (fun _ _ w₅ hw₅ => ?_) fun _ w₅ hw₅ => ?_
  · unfold Both
    rw [Walk.outcome_bind, outcome_settled hw₅.2.2]
    exact Calm.passArray.silent w₅ hw₅.2
  · exact ⟨(), by rw [Walk.outcome_bind, outcome_settled hw₅.2.settled]; rfl, trivial, hw₅.2⟩

end Loops

/-- There are no arrays for loops. -/
theorem tells_failedLoops {loops : List Loop} :
    Tells g stall (Walk.failLoops (loops.map Loop.halting))
      (Pass.failedLoops (loops.map Loop.runner)) := by
  refine tells_ask (?_ : Tells g stall _ (Pass.failLoops _))
  refine tells_untilSettled fun l _ => ?_
  rw [l.halting_bucket, l.runner_bucket]
  exact tells_ifUnknown silent_mark

section Runs

variable {loops : List Loop} (h : ∀ l ∈ loops, l.Polls g stall)
include h

/-- Loop after loop over one array. -/
theorem silent_runLoops :
    Silent g stall (Walk.runLoops (loops.map Loop.halting))
      (Pass.runLoops (loops.map Loop.runner)) := by
  refine Calm.get.bind_polls fun w => Tells.discard (tells_untilSettled fun l hl => ?_)
  refine Calm.seek.bind_polls fun _ => ?_
  rw [l.halting_bucket, l.runner_bucket]
  refine Calm.isUnknown.bind_polls fun u => ?_
  cases u with
  | true => exact tells_ask (h l hl)
  | false =>
    show Polls g stall Walk.skipContainer (Walk.skipContainer >>= fun _ => pure false) _ _
    rw [← bind_pure Walk.skipContainer]
    exact Calm.skipContainer.bind_polls fun _ => polls_pure rfl

end Runs

theorem outcome_returning {ε : Type} {m : WalkOf ε Unit} {position : Nat} :
    (Walk.restoring m (Walk.seek position)).outcome s w = ((m.outcome s w).1,
      { (m.outcome s w).2 with cursor := (m.outcome s w).2.cursor.seek position }) := by
  unfold Walk.restoring
  rw [Walk.outcome_bind, Walk.outcome_observing]
  rcases m.outcome s w with ⟨_ | _, _⟩ <;> rfl

/-- The walk comes back from an array whatever becomes of it there. -/
theorem Silent.returning {m : Walk Unit} {m' : Pass Unit} {position : Nat}
    (h : Silent g stall m m') : Silent g stall (Walk.restoring m (Walk.seek position))
      (Walk.restoring m' (Walk.seek position)) := fun w hw => by
  have hm := h w hw
  unfold Both at hm ⊢
  rw [outcome_returning, outcome_returning]
  split at hm
  · next heq =>
    obtain ⟨b, ho, -, hw₁⟩ := hm
    rw [heq, ho]
    exact ⟨b, rfl, trivial, hw₁.of_calm ⟨rfl, [], rfl, by simp⟩⟩
  · next heq =>
    obtain ⟨b, ho, -, hw₁⟩ := hm
    rw [heq, ho]
    exact ⟨b, rfl, trivial, hw₁.tree, hw₁.stalled, hw₁.settled, hw₁.told⟩
  · next heq =>
    rw [heq, hm.1]
    exact ⟨rfl, hm.2⟩

section Captured

variable {l : Loop} (h : l.Polls g stall)
include h

theorem silent_runOver (found : Option Span) :
    Silent g stall (Walk.runOver found l.halting) (Pass.runOver found l.runner) := by
  refine Calm.get.bind_polls fun w => ?_
  have hmark : Silent g stall (Walk.mark l.halting.bucket false)
      (Pass.mark l.runner.bucket false) := by
    rw [l.halting_bucket, l.runner_bucket]
    exact silent_mark
  cases found with
  | none => exact hmark
  | some span =>
    simp only
    split
    · exact Calm.seek.bind_polls fun _ => h.returning
    · exact hmark

/-- A loop that waits is run where its bucket is unknown. -/
theorem tells_runCaptured :
    Tells g stall (Walk.runCaptured l.target l.halting)
      (Pass.ifUnknown l.runner.bucket (Pass.runCaptured l.target l.runner)) := by
  unfold Walk.runCaptured
  rw [l.halting_bucket, l.runner_bucket]
  refine tells_ifUnknown ?_
  cases l.target with
  | slot slot =>
    simp only [Pass.runCaptured, l.runner_bucket]
    exact Calm.fetch.bind_polls fun found => silent_runOver h found
  | literal _ => exact Calm.fail.silent
  | func _ _ => exact Calm.fail.silent
  | active => exact Calm.fail.silent

end Captured

theorem silent_after (tests : List Test) {loops : List Loop}
    (h : ∀ l ∈ loops, l.Polls g stall) :
    Silent g stall (Walk.after tests (loops.map fun l => (l.target, l.halting)))
      (Pass.after tests (loops.map fun l => (l.target, l.runner))) :=
  Tells.next tells_testAll (Tells.discard
    (tells_untilSettled fun l hl => tells_runCaptured (h l hl))) trivial

/-! ## 6. Values -/

/-- A container is read until the walk is settled. -/
theorem polls_container {m : Walk Unit} {m' : Pass Unit} {make : Bytes → Value} {token : Token}
    (h : Silent g stall m m') :
    Polls g stall (Walk.container make token m) (Pass.container make token m')
      (fun v r => r = some v) fun r => r = none := by
  refine Polls.bind h (fun _ _ _ => ?_) fun _ _ => ⟨none, rfl, fun w hw => ?_⟩
  · intro w hw
    unfold Both
    rw [Walk.outcome_bind (m := Pass.settled), outcome_settled hw.2]
    refine (Calm.spanFrom.bind_polls fun span => Calm.get.bind_polls fun w => ?_) w hw
    exact polls_pure rfl
  · rw [Walk.outcome_bind, outcome_settled hw.settled]
    rfl

section Values

variable {loops : List Loop} {children : List (String × Node)}
  (hl : ∀ l ∈ loops, l.Polls g stall) (hc : ∀ c ∈ children, c.2.Polls g stall)
include hl hc

theorem polls_readValue (token : Token) :
    Polls g stall
      (Walk.readValue (loops.map Loop.halting) (children.map fun c => (c.1, c.2.halting)) token)
      (Pass.readValue (loops.map Loop.runner) (children.map fun c => (c.1, c.2.handler)) token)
      (fun v r => r = some v) fun r => r = none := by
  have hclosed (make : Bytes → Value) : Polls g stall
      (Walk.container make token Walk.skipContainer) (Pass.closedContainer make token)
      (fun v r => r = some v) fun r => r = none := by
    refine Calm.skipContainer.bind_polls fun _ => Calm.spanFrom.bind_polls fun span => ?_
    exact Calm.get.bind_polls fun w => polls_pure rfl
  unfold Walk.readValue Pass.readValue
  cases token.kind with
  | objectStart =>
    simp only [List.isEmpty_map]
    split
    · exact hclosed .object
    · exact polls_container (silent_members hc)
  | arrayStart =>
    simp only [List.isEmpty_map]
    split
    · exact hclosed .array
    · exact polls_container (silent_runLoops hl)
  | _ =>
    show Polls g stall (if _ then _ else _) (if _ then _ else _) _ _
    split
    · exact polls_pure rfl
    · exact polls_fail

end Values

/-- The body of a loop lies below the loop. -/
theorem Course.LoopFits.below {c : Course} {l : Loop} (h : c.LoopFits stall l)
    (hv : c.tree.Valid) : c.tree.isBelow l.bucket (c.tree.node l.bucket).left = true := by
  have hlt := (hv.first_child h.bucket.lt (.inr h.kind)).1
  exact (hv.child_below h.bucket.lt (.inl rfl) (by omega)).1

/-- **The two handlers of a node come to the same.** -/
theorem Node.polls {c : Course} (hv : c.tree.Valid) (hg : g.tree = c.tree) (n : Node) :
    ∀ stall, n.Fits c stall → n.Polls g stall := by
  induction n using Node.induct with
  | h n children loops afterLoops =>
  intro stall hfit
  have hchildren : ∀ child ∈ n.children, child.2.Polls g stall := fun child hc =>
    children child hc stall (hfit.child hc)
  have hloop (l : Loop) (hl : l ∈ n.allLoops)
      (hbody : ∀ stall, l.body.Fits c stall → l.body.Polls g stall) :
      l.Polls g stall := by
    obtain ⟨hloop, hfits, -⟩ := hfit.loop hl
    exact Loop.polls (hg ▸ hloop.below hv) (hbody _ hfits)
  have hloops : ∀ l ∈ n.loops, l.Polls g stall := fun l hl =>
    hloop l (List.mem_append_left _ hl) (loops l hl)
  have hafter := silent_after n.afterTests fun l hl =>
    hloop l (List.mem_append_right _ hl) (afterLoops l hl)
  have hmissing := tells_missingAll hchildren
  refine ⟨fun token => ?_, fun token v => ?_, ?_⟩
  · rw [n.halting_eq, n.handler_eq]
    exact polls_readValue hloops hchildren token
  · rw [n.halting_eq, n.handler_eq]
    refine Calm.capture.bind_polls fun _ => ?_
    refine Tells.next tells_testAll (Tells.next ?_ (Tells.next ?_ hafter trivial) trivial) trivial
    · unfold Walk.unlessOf Pass.unlessOf
      split
      · exact polls_pure rfl
      · exact tells_failedLoops
    · unfold Walk.unlessOf Pass.unlessOf
      split
      · exact polls_pure rfl
      · exact hmissing
  · rw [n.halting_eq, n.handler_eq]
    exact Tells.next tells_testAll (Tells.next tells_failedLoops
      (Tells.next hmissing hafter trivial) trivial) trivial

end Sift
