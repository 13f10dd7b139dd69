import Sift.Walk.Handler
import Sift.Proofs.Walk.Outcome

/-!
# Two walks that come to the same

`Pass` and `Walk` follow a plan in the same way, but for what happens where a mark settles the
walk: a `Walk` halts there, and a `Pass` goes on, and whoever called asks and returns.
`Both s w m m' Q E F` says that the two parts `m` and `m'` come to the same from the walker `w`:
they fail alike, and where `m` halts, `m'` ends with the same walker.

`Calm` says it of two parts that mark nothing, which is most of what walks are made of. They are the
same in a `Walk` and in a `Pass`.
-/

namespace Sift

variable {α β γ δ : Type} {s : Setting} {w w' : Walker}

/-! ## 1. Two walks -/

/-- **Two parts of walks come to the same**: `Q` holds where both end, `E` where the first halts and
    the second ends, and `F` where both fail. -/
def Both (s : Setting) (w : Walker) (m : Walk α) (m' : Pass β) (Q : α → β → Walker → Prop)
    (E : β → Walker → Prop) (F : Walker → Prop) : Prop :=
  match m.outcome s w with
  | (.ok a, w₁) => ∃ b, m'.outcome s w = (.ok b, w₁) ∧ Q a b w₁
  | (.error .settled, w₁) => ∃ b, m'.outcome s w = (.ok b, w₁) ∧ E b w₁
  | (.error (.failed e), w₁) => m'.outcome s w = (.error e, w₁) ∧ F w₁

section Both

variable {m : Walk α} {m' : Pass β} {Q : α → β → Walker → Prop} {E : β → Walker → Prop}
  {F : Walker → Prop}

theorem Both.mono {Q' : α → β → Walker → Prop} {E' : β → Walker → Prop} {F' : Walker → Prop}
    (h : Both s w m m' Q E F) (hq : ∀ a b w₁, Q a b w₁ → Q' a b w₁)
    (he : ∀ b w₁, E b w₁ → E' b w₁) (hf : ∀ w₁, F w₁ → F' w₁) : Both s w m m' Q' E' F' := by
  unfold Both at h ⊢
  split at h
  · obtain ⟨b, ho, h⟩ := h
    exact ⟨b, ho, hq _ _ _ h⟩
  · obtain ⟨b, ho, h⟩ := h
    exact ⟨b, ho, he _ _ h⟩
  · exact ⟨h.1, hf _ h.2⟩

/-- **One part after the other.** Where the first halts, what comes next in the second does
    nothing. -/
theorem Both.bind {f : α → Walk γ} {f' : β → Pass δ} {Q' : γ → δ → Walker → Prop}
    {E' : δ → Walker → Prop} (h : Both s w m m' Q E F)
    (hf : ∀ a b w₁, Q a b w₁ → Both s w₁ (f a) (f' b) Q' E' F)
    (he : ∀ b w₁, E b w₁ → ∃ c, (f' b).outcome s w₁ = (.ok c, w₁) ∧ E' c w₁) :
    Both s w (m >>= f) (m' >>= f') Q' E' F := by
  unfold Both at h ⊢
  rw [Walk.outcome_bind, Walk.outcome_bind]
  split at h
  · next a w₁ heq =>
    obtain ⟨b, ho, h⟩ := h
    simp only [heq, ho]
    exact hf a b w₁ h
  · next w₁ heq =>
    obtain ⟨b, ho, h⟩ := h
    simp only [heq, ho]
    exact he b w₁ h
  · next e w₁ heq =>
    simp only [heq, h.1]
    exact ⟨trivial, h.2⟩

/-- A part that never halts, and then another. -/
theorem Both.next {f : α → Walk γ} {f' : β → Pass δ} {Q' : γ → δ → Walker → Prop}
    {E' : δ → Walker → Prop} (h : Both s w m m' Q (fun _ _ => False) F)
    (hf : ∀ a b w₁, Q a b w₁ → Both s w₁ (f a) (f' b) Q' E' F) :
    Both s w (m >>= f) (m' >>= f') Q' E' F := h.bind hf fun _ _ he => he.elim

theorem both_pure {a : α} {b : β} (h : Q a b w) : Both s w (pure a) (pure b) Q E F := ⟨b, rfl, h⟩

theorem both_fail {e : MatchError} (h : F w) : Both s w (Walk.fail e) (Walk.fail e) Q E F := ⟨rfl, h⟩

/-- Turn after turn, where each keeps `I` or comes to a result. -/
theorem both_iterate {next : γ → Walk (γ ⊕ α)} {next' : γ → Pass (γ ⊕ β)} {I : γ → Walker → Prop}
    (hn : ∀ a w, I a w → Both s w (next a) (next' a)
      (fun r r' w₁ => (∃ a, r = .inl a ∧ r' = .inl a ∧ I a w₁) ∨
        ∃ a b, r = .inr a ∧ r' = .inr b ∧ Q a b w₁)
      (fun r' w₁ => ∃ b, r' = .inr b ∧ E b w₁) F)
    (hf : ∀ a w, I a w → F w) :
    ∀ (n : Nat) {a : γ} {w : Walker}, I a w →
      Both s w (Walk.iterate next n a) (Walk.iterate next' n a) Q E F
  | 0, a, w, h => both_fail (hf a w h)
  | n + 1, a, w, h => by
    refine (hn a w h).bind (fun r r' w₁ hr => ?_) fun r' w₁ hr => ?_
    · rcases hr with ⟨a, rfl, rfl, hi⟩ | ⟨a, b, rfl, rfl, hq⟩
      · exact both_iterate hn hf n hi
      · exact both_pure hq
    · obtain ⟨b, rfl, he⟩ := hr
      exact ⟨b, rfl, he⟩

theorem both_repeatedly {next : γ → Walk (γ ⊕ α)} {next' : γ → Pass (γ ⊕ β)} {a : γ}
    (h : Both s w (Walk.iterate next s.bound a) (Walk.iterate next' s.bound a) Q E F) :
    Both s w (Walk.repeatedly next a) (Walk.repeatedly next' a) Q E F := h

end Both

theorem outcome_read {ε : Type} : (read : WalkOf ε Setting).outcome s w = (.ok s, w) := rfl

theorem outcome_modify {ε : Type} {f : Walker → Walker} :
    (modify f : WalkOf ε Unit).outcome s w = (.ok (), f w) := rfl

theorem outcome_note {ε : Type} {e : Event} :
    (Walk.note e : WalkOf ε Unit).outcome s w = (.ok (), { w with trail := e :: w.trail }) := rfl

/-- What comes of looking at a slot. -/
theorem outcome_slotAt {ε : Type} [Failing ε] {slot : Nat} :
    (Walk.slotAt slot : WalkOf ε (Option Span)).outcome s w =
      (w.slots[slot]?.elim (.error (Failing.failed (.defect (.noSlot slot)))) .ok, w) := by
  have hget : (get : WalkOf ε Walker).outcome s w = (.ok w, w) := rfl
  unfold Walk.slotAt
  rw [Walk.outcome_bind]
  cases h : w.slots[slot]? with
  | none =>
    simp only [hget, h]
    rfl
  | some found =>
    simp only [hget, h]
    rfl

/-- The bytes from an offset up to where the walker stands. -/
theorem outcome_spanFrom {ε : Type} [Failing ε] {offset : Nat}
    (h : offset ≤ w.cursor.position ∧ w.cursor.position ≤ w.cursor.data.length) :
    (Walk.spanFrom offset : WalkOf ε Span).outcome s w =
      (.ok (.between offset w.cursor.position), w) := by
  have hget : (get : WalkOf ε Walker).outcome s w = (.ok w, w) := rfl
  unfold Walk.spanFrom
  rw [Walk.outcome_bind]
  simp only [hget, if_pos h]
  rfl

/-! ## 2. Parts that mark nothing -/

/-- Whether an event is neither that the document has been read nor that it is decided. -/
def Event.Plain : Event → Prop
  | .wholeRead => False
  | .marked _ _ decided => decided = false
  | _ => True

/-- All marks are as they were, and nothing is said but what is plain. -/
structure Walker.Calm (w w' : Walker) : Prop where
  state : w'.state = w.state
  trail : ∃ events, w'.trail = events ++ w.trail ∧ ∀ e ∈ events, e.Plain

theorem Walker.Calm.refl (w : Walker) : w.Calm w := ⟨rfl, [], rfl, by simp⟩

theorem Walker.Calm.trans {w'' : Walker} (h : w.Calm w') (h' : w'.Calm w'') : w.Calm w'' := by
  obtain ⟨es, ht, he⟩ := h.trail
  obtain ⟨es', ht', he'⟩ := h'.trail
  refine ⟨h'.state.trans h.state, es' ++ es, by rw [ht', ht, List.append_assoc], fun e hm => ?_⟩
  exact (List.mem_append.mp hm).elim (he' e) (he e)

/-- **Two parts that come to the same** and leave all marks as they are. They are never settled. -/
def Calm (m : Walk α) (m' : Pass α) : Prop :=
  ∀ s w, Both s w m m' (fun a b w₁ => a = b ∧ w.Calm w₁) (fun _ _ => False) w.Calm

/-- One token has been asked for, and nothing else has been done. -/
def Walker.Stepped (w w' : Walker) : Prop :=
  ∃ cursor, w' = { w with cursor, trail := .stepped :: w.trail }

theorem stepped_calm (h : w.Stepped w') : w.Calm w' := by
  obtain ⟨cursor, rfl⟩ := h
  exact ⟨rfl, [.stepped], rfl, by simp [Event.Plain]⟩

/-- What is left of a step once the cursor has come to a result. -/
def Walk.stepTo {ε : Type} [Failing ε] (w : Walker) (result : Except LexError Token)
    (cursor : Cursor) : WalkOf ε Token := do
  set { w with cursor, trail := .stepped :: w.trail }
  match result with
  | .ok token => return token
  | .error e => Walk.fail (.lex e)

/-- What comes of asking for the next token. -/
theorem outcome_step {ε : Type} [Failing ε] : (Walk.step : WalkOf ε Token).outcome s w =
    (w.cursor.step.1.mapError fun e => Failing.failed (.lex e),
      { w with cursor := w.cursor.step.2, trail := .stepped :: w.trail }) := by
  have stepTo (result : Except LexError Token) (cursor : Cursor) :
      (Walk.stepTo w result cursor : WalkOf ε Token).outcome s
          { w with trail := .stepped :: w.trail } =
        (result.mapError fun e => Failing.failed (.lex e),
          { w with cursor, trail := .stepped :: w.trail }) := by
    cases result <;> rfl
  exact stepTo w.cursor.step.1 w.cursor.step.2

/-- What is left of skipping a container once the cursor has come to a result. -/
def Walk.skipTo {ε : Type} [Failing ε] (w : Walker) (result : Except LexError Nat)
    (cursor : Cursor) : WalkOf ε Unit := do
  set { w with cursor, trail := .skipped :: w.trail }
  match result with
  | .ok _ => return
  | .error e => Walk.fail (.lex e)

/-- What comes of skipping a container. -/
theorem outcome_skipContainer {ε : Type} [Failing ε] :
    (Walk.skipContainer : WalkOf ε Unit).outcome s w =
      ((w.cursor.skipContainer.1.map fun _ => ()).mapError fun e => Failing.failed (.lex e),
        { w with cursor := w.cursor.skipContainer.2, trail := .skipped :: w.trail }) := by
  have skipTo (result : Except LexError Nat) (cursor : Cursor) :
      (Walk.skipTo w result cursor : WalkOf ε Unit).outcome s
          { w with trail := .skipped :: w.trail } =
        ((result.map fun _ => ()).mapError fun e => Failing.failed (.lex e),
          { w with cursor, trail := .skipped :: w.trail }) := by
    cases result <;> rfl
  exact skipTo w.cursor.skipContainer.1 w.cursor.skipContainer.2

theorem both_step : Both s w Walk.step Walk.step (fun a b w₁ => a = b ∧ w.Stepped w₁)
    (fun _ _ => False) w.Stepped := by
  unfold Both
  rw [outcome_step, outcome_step]
  cases w.cursor.step.1 with
  | ok token => exact ⟨token, rfl, rfl, _, rfl⟩
  | error e => exact ⟨rfl, _, rfl⟩

namespace Calm

theorem bind {m : Walk α} {m' : Pass α} {f : α → Walk β} {f' : α → Pass β} (h : Calm m m')
    (hf : ∀ a, Calm (f a) (f' a)) : Calm (m >>= f) (m' >>= f') := fun s w =>
  (h s w).next fun a _ w₁ hq => hq.1 ▸ (hf a s w₁).mono
    (fun _ _ _ h => ⟨h.1, hq.2.trans h.2⟩) (fun _ _ h => h) fun _ h => hq.2.trans h

theorem pure {a : α} : Calm (pure a) (pure a) := fun _ w => both_pure ⟨rfl, .refl w⟩

theorem fail {e : MatchError} : Calm (Walk.fail e : Walk α) (Walk.fail e) := fun _ w =>
  both_fail (.refl w)

theorem get : Calm get get := fun _ w => ⟨w, rfl, rfl, .refl w⟩

theorem read : Calm read read := fun s _ => ⟨s, rfl, rfl, .refl _⟩

theorem note {e : Event} (h : e.Plain) : Calm (Walk.note e) (Walk.note e) :=
  fun _ _ => ⟨(), rfl, rfl, rfl, [e], rfl, by simpa using h⟩

theorem seek {position : Nat} : Calm (Walk.seek position) (Walk.seek position) :=
  fun _ _ => ⟨(), rfl, rfl, rfl, [], rfl, by simp⟩

theorem setSlot {slot : Nat} {found : Option Span} :
    Calm (Walk.setSlot slot found) (Walk.setSlot slot found) :=
  fun _ _ => ⟨(), rfl, rfl, rfl, [], rfl, by simp⟩

theorem ite {p : Prop} [Decidable p] {m₁ m₂ : Walk α} {m₁' m₂' : Pass α} (h₁ : Calm m₁ m₁')
    (h₂ : Calm m₂ m₂') : Calm (if p then m₁ else m₂) (if p then m₁' else m₂') := by
  split
  · exact h₁
  · exact h₂

theorem forM {f : α → Walk PUnit} {f' : α → Pass PUnit} (h : ∀ a, Calm (f a) (f' a)) :
    ∀ l : List α, Calm (l.forM f) (l.forM f')
  | [] => pure
  | a :: rest => by
    rw [List.forM_eq_forM, List.forM_eq_forM, List.forM_cons, List.forM_cons]
    exact (h a).bind fun _ => forM h rest

/-- A part that looks at the walker first. -/
theorem get_bind {f : Walker → Walk α} {f' : Walker → Pass α}
    (h : ∀ s w, Both s w (f w) (f' w) (fun a b w₁ => a = b ∧ w.Calm w₁) (fun _ _ => False) w.Calm) :
    Calm (MonadState.get >>= f) (MonadState.get >>= f') := fun s w => by
  refine Both.next (Q := fun a b w₁ => a = w ∧ b = w ∧ w₁ = w) ⟨w, rfl, rfl, rfl, rfl⟩
    fun a b w₁ hw => ?_
  obtain ⟨rfl, rfl, rfl⟩ := hw
  exact h s w₁

theorem step : Calm Walk.step Walk.step := fun _ _ =>
  both_step.mono (fun _ _ _ h => ⟨h.1, stepped_calm h.2⟩) (fun _ _ h => h) fun _ h => stepped_calm h

theorem skipContainer : Calm Walk.skipContainer Walk.skipContainer :=
  (note (by trivial)).bind fun _ => get_bind fun _ w => by
    have hcalm (cursor : Cursor) : w.Calm { w with cursor } := ⟨rfl, [], rfl, by simp⟩
    rcases w.cursor.skipContainer with ⟨e | _, cursor⟩
    · exact ⟨rfl, hcalm cursor⟩
    · exact ⟨(), rfl, rfl, hcalm cursor⟩

theorem unexpected {token : Token} {e : Expected} :
    Calm (Walk.unexpected token e : Walk α) (Walk.unexpected token e) := fail

theorem skipValue {token : Token} : Calm (Walk.skipValue token) (Walk.skipValue token) :=
  skipContainer.ite (pure.ite unexpected)

theorem passAt {position : Nat} : Calm (Walk.passAt position) (Walk.passAt position) :=
  seek.bind fun _ => step.bind fun _ => skipValue

theorem checkBucket {bucket : Nat} : Calm (Walk.checkBucket bucket) (Walk.checkBucket bucket) :=
  get.bind fun _ => fail.ite pure

theorem isUnknown {bucket : Nat} : Calm (Walk.isUnknown bucket) (Walk.isUnknown bucket) :=
  checkBucket.bind fun _ => get.bind fun _ => pure

theorem spanFrom {offset : Nat} : Calm (Walk.spanFrom offset) (Walk.spanFrom offset) :=
  get.bind fun _ => pure.ite fail

theorem slotAt {slot : Nat} : Calm (Walk.slotAt slot) (Walk.slotAt slot) :=
  get.bind fun w => by
    cases w.slots[slot]? with
    | none => exact fail
    | some found => exact pure

theorem release {slot : Nat} : Calm (Walk.release slot) (Walk.release slot) :=
  slotAt.bind fun _ => setSlot

theorem fetch {reader slot : Nat} : Calm (Walk.fetch reader slot) (Walk.fetch reader slot) :=
  slotAt.bind fun found => (note (by trivial)).bind fun _ => by
    cases found with
    | none => exact pure
    | some span => exact get.bind fun _ => pure.ite fail

theorem capture {token : Token} {v : Value} {slot : Option Nat} :
    Calm (Walk.capture token v slot) (Walk.capture token v slot) := by
  cases slot with
  | none => exact pure
  | some slot =>
    refine slotAt.bind fun found => ?_
    cases found with
    | some _ => exact pure
    | none => exact spanFrom.bind fun _ => setSlot.bind fun _ => note (by trivial)

theorem nextPart {closing : TokenKind} {e : Expected} :
    Calm (Walk.nextPart closing e) (Walk.nextPart closing e) :=
  step.bind fun _ => (step.bind fun _ => pure).ite (pure.ite unexpected)

theorem memberStart {key : Token} : Calm (Walk.memberStart key) (Walk.memberStart key) :=
  (step.bind fun _ => step.ite unexpected).ite unexpected

theorem bodyOf {bucket : Nat} : Calm (Walk.bodyOf bucket) (Walk.bodyOf bucket) :=
  checkBucket.bind fun _ => get.bind fun _ => checkBucket.bind fun _ => pure

theorem judge {bucket body : Nat} : Calm (Walk.judge bucket body) (Walk.judge bucket body) :=
  get.bind fun _ => (note (by trivial)).bind fun _ => pure

theorem passRest {early : Bool} {first : Token} :
    Calm (Walk.passRest early first) (Walk.passRest early first) := passAt.ite pure

theorem passArray {decider : Option Token} :
    Calm (Walk.passArray decider) (Walk.passArray decider) := by
  cases decider with
  | none => exact pure
  | some _ => exact passAt.bind fun _ => skipContainer

theorem opening : Calm Walk.opening Walk.opening := step.bind fun _ => fail.ite pure

end Calm

end Sift
