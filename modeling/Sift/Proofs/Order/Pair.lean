import Mathlib.Data.List.Forall2
import Sift.Proofs.Walk.Both
import Sift.Proofs.Walk.Moves

/-!
# Two walks side by side

`Pair F s w w' m m' Q S` compares the walk `m` from `w` with the walk `m'` from `w'`: where both end,
they end with the same result and `Q` holds; where one is settled the other is as well, and `S`
holds. Where one fails the other does as well, but for failures of which `F` holds: then nothing is
said of the other.

`Steady` parts look at nothing but the place that the cursor stands at. That is most of what is
read of a document, and two walks at the same place read the same.
-/

namespace Sift

variable {F : Walker → Prop} {α β : Type} {s : Setting} {w w' : Walker}

/-! ## 1. Two outcomes -/

/-- **Two outcomes that go with each other.** One may be a failure of which `F` holds, whatever the
    other is. -/
inductive Joint (F : Walker → Prop) (Q : α → Walker → Walker → Prop) (S : Walker → Walker → Prop) :
    Except Halt α × Walker → Except Halt α × Walker → Prop
  | ends {a : α} {v v' : Walker} (h : Q a v v') : Joint F Q S (.ok a, v) (.ok a, v')
  | settles {v v' : Walker} (h : S v v') : Joint F Q S (.error .settled, v) (.error .settled, v')
  | fails {e e' : MatchError} {v v' : Walker} :
    Joint F Q S (.error (.failed e), v) (.error (.failed e'), v')
  | first {e : MatchError} {v : Walker} (hf : F v) (r : Except Halt α × Walker) :
    Joint F Q S (.error (.failed e), v) r
  | second {e : MatchError} {v : Walker} (hf : F v) (r : Except Halt α × Walker) :
    Joint F Q S r (.error (.failed e), v)

/-- **Two parts of walks go with each other.** -/
def Pair (F : Walker → Prop) (s : Setting) (w w' : Walker) (m m' : Walk α)
    (Q : α → Walker → Walker → Prop) (S : Walker → Walker → Prop) : Prop :=
  Joint F Q S (m.outcome s w) (m'.outcome s w')

/-- Two walks that are never settled here. -/
def Never (_ _ : Walker) : Prop := False

section Pair

variable {m m' : Walk α} {Q : α → Walker → Walker → Prop} {S : Walker → Walker → Prop}

theorem Pair.mono {Q' : α → Walker → Walker → Prop} {S' : Walker → Walker → Prop}
    (h : Pair F s w w' m m' Q S) (hq : ∀ a v v', Q a v v' → Q' a v v')
    (hs : ∀ v v', S v v' → S' v v') : Pair F s w w' m m' Q' S' := by
  unfold Pair at h ⊢
  generalize m.outcome s w = r at h ⊢
  generalize m'.outcome s w' = r' at h ⊢
  cases h with
  | ends h => exact .ends (hq _ _ _ h)
  | settles h => exact .settles (hs _ _ h)
  | fails => exact .fails
  | first hf => exact .first hf _
  | second hf => exact .second hf _

/-- What is known of each of two walks is known of both. -/
theorem Pair.and {P P' : α → Walker → Prop} {H H' : Halt → Walker → Prop}
    (h : Pair F s w w' m m' Q S) (h₁ : Walk.Meets s w m P H) (h₂ : Walk.Meets s w' m' P' H') :
    Pair F s w w' m m' (fun a v v' => Q a v v' ∧ P a v ∧ P' a v')
      (fun v v' => S v v' ∧ H .settled v ∧ H' .settled v') := by
  unfold Pair at h ⊢
  unfold Walk.Meets at h₁ h₂
  generalize m.outcome s w = r at h h₁ ⊢
  generalize m'.outcome s w' = r' at h h₂ ⊢
  cases h with
  | ends h => exact .ends ⟨h, h₁, h₂⟩
  | settles h => exact .settles ⟨h, h₁, h₂⟩
  | fails => exact .fails
  | first hf => exact .first hf _
  | second hf => exact .second hf _

/-- **One part after the other.** -/
theorem Pair.bind {f f' : α → Walk β} {Q' : β → Walker → Walker → Prop}
    (h : Pair F s w w' m m' Q S)
    (hf : ∀ a v v', Q a v v' → Pair F s v v' (f a) (f' a) Q' S) :
    Pair F s w w' (m >>= f) (m' >>= f') Q' S := by
  unfold Pair at h ⊢
  rw [Walk.outcome_bind, Walk.outcome_bind]
  generalize m.outcome s w = r at h ⊢
  generalize m'.outcome s w' = r' at h ⊢
  cases h with
  | @ends a v v' h => exact hf a v v' h
  | settles h => exact .settles h
  | fails => exact .fails
  | first hf r' =>
    rcases r' with ⟨_ | _, _⟩
    · exact .first hf _
    · exact .first hf _
  | second hf r =>
    rcases r with ⟨_ | _, _⟩
    · exact .second hf _
    · exact .second hf _

/-- A part that is never settled, and then another. -/
theorem Pair.next {f f' : α → Walk β} {Q' : β → Walker → Walker → Prop}
    (h : Pair F s w w' m m' Q Never) (hf : ∀ a v v', Q a v v' → Pair F s v v' (f a) (f' a) Q' S) :
    Pair F s w w' (m >>= f) (m' >>= f') Q' S :=
  (h.mono (fun _ _ _ h => h) fun _ _ h => h.elim).bind hf

/-- **Two parts of which it is known what they leave.** -/
theorem pair_of_meets {P P' : α → Walker → Prop} {T T' : Walker → Prop}
    (h : Walk.Meets s w m P (Walk.Stops F T)) (h' : Walk.Meets s w' m' P' (Walk.Stops F T'))
    (hends : ∀ a a' v v', P a v → P' a' v' → a = a' ∧ Q a v v')
    (hsettles : ∀ v v', T v → T' v' → S v v') (hfirst : ∀ a v v', T v → ¬ P' a v')
    (hsecond : ∀ a v v', P a v → ¬ T' v') : Pair F s w w' m m' Q S := by
  unfold Pair
  unfold Walk.Meets at h h'
  generalize m.outcome s w = r at h ⊢
  generalize m'.outcome s w' = r' at h' ⊢
  rcases r with ⟨(_ | _) | a, v⟩
  · rcases r' with ⟨(_ | _) | a', v'⟩
    · exact .settles (hsettles v v' h h')
    · exact .second h' _
    · exact absurd h' (hfirst _ v v' h)
  · exact .first h _
  · rcases r' with ⟨(_ | _) | a', v'⟩
    · exact absurd h' (hsecond a v v' h)
    · exact .second h' _
    · obtain ⟨rfl, hq⟩ := hends a a' v v' h h'
      exact .ends hq

/-- Two parts that never settle a walk. -/
theorem pair_of_ends {P P' : α → Walker → Prop}
    (h : Walk.Meets s w m P (Walk.Stops F fun _ => False))
    (h' : Walk.Meets s w' m' P' (Walk.Stops F fun _ => False))
    (hends : ∀ a a' v v', P a v → P' a' v' → a = a' ∧ Q a v v') : Pair F s w w' m m' Q S :=
  pair_of_meets h h' hends (fun _ _ h _ => h.elim) (fun _ _ _ h => h.elim) fun _ _ _ _ h => h

theorem pair_pure {a : α} (h : Q a w w') : Pair F s w w' (pure a) (pure a) Q S := .ends h

theorem pair_fail {e e' : MatchError} :
    Pair F s w w' (Walk.fail e : Walk α) (Walk.fail e') Q S := .fails

/-- Two parts that look at the walker first. -/
theorem pair_get_bind {f f' : Walker → Walk α} (h : Pair F s w w' (f w) (f' w') Q S) :
    Pair F s w w' (get >>= f) (get >>= f') Q S := h

theorem pair_modify {f f' : Walker → Walker} {Q : Unit → Walker → Walker → Prop}
    (h : Q () (f w) (f' w')) : Pair F s w w' (modify f) (modify f') Q S := .ends h

/-- Two parts that change the walker first. -/
theorem pair_modifyGet_bind {g g' : Walker → α × Walker} {f f' : α → Walk β}
    {Q : β → Walker → Walker → Prop} (h : Pair F s (g w).2 (g' w').2 (f (g w).1) (f' (g' w').1) Q S) :
    Pair F s w w' (modifyGet g >>= f) (modifyGet g' >>= f') Q S := h

/-- A part that settles is caught. -/
theorem Pair.caught {part part' : Walk Unit} {Q : Bool → Walker → Walker → Prop}
    (h : Pair F s w w' part part' (fun _ => Q false) (Q true)) :
    Pair F s w w' (Walk.settles part) (Walk.settles part') Q S := by
  unfold Pair at h ⊢
  unfold Walk.settles
  rw [Walk.outcome_bind, Walk.outcome_bind, Walk.outcome_observing, Walk.outcome_observing]
  generalize part.outcome s w = r at h ⊢
  generalize part'.outcome s w' = r' at h ⊢
  cases h with
  | ends h => exact .ends h
  | settles h => exact .ends h
  | fails => exact .fails
  | first hf r' =>
    rcases r' with ⟨(_ | _) | _, _⟩
    · exact .first hf _
    · exact .first hf _
    · exact .first hf _
  | second hf r =>
    rcases r with ⟨(_ | _) | _, _⟩
    · exact .second hf _
    · exact .second hf _
    · exact .second hf _

/-- **One thing after the other**, for two lists that are alike. -/
theorem pair_forM {γ : Type} {f f' : γ → Walk PUnit} {R : γ → γ → Prop}
    {I : Walker → Walker → Prop} {l l' : List γ} (hl : List.Forall₂ R l l')
    (hf : ∀ a ∈ l, ∀ a' ∈ l', R a a' → ∀ v v', I v v' →
      Pair F s v v' (f a) (f' a') (fun _ => I) S) :
    ∀ {w w'}, I w w' → Pair F s w w' (l.forM f) (l'.forM f') (fun _ => I) S := by
  induction hl with
  | nil => exact fun h => pair_pure h
  | @cons a a' l l' hab _ ih =>
    intro w w' h
    rw [List.forM_eq_forM, List.forM_cons, List.forM_cons]
    refine (hf a List.mem_cons_self a' List.mem_cons_self hab w w' h).bind fun _ v v' hi => ?_
    exact ih (fun b hb b' hb' => hf b (List.mem_cons_of_mem _ hb) b' (List.mem_cons_of_mem _ hb')) hi

/-- **Turn after turn.** -/
theorem pair_iterate {γ : Type} {next next' : γ → Walk (γ ⊕ β)}
    {Q : β → Walker → Walker → Prop} {I : Nat → γ → Walker → Walker → Prop}
    (hn : ∀ n a v v', I (n + 1) a v v' → Pair F s v v' (next a) (next' a) (fun r v v' => match r with
      | .inl a => I n a v v'
      | .inr b => Q b v v') S) :
    ∀ {n : Nat} {a : γ} {w w'}, I n a w w' →
      Pair F s w w' (Walk.iterate next n a) (Walk.iterate next' n a) Q S
  | 0, _, _, _, _ => pair_fail
  | n + 1, a, w, w', h => by
    refine (hn n a w w' h).bind fun r v v' hr => ?_
    cases r with
    | inl a => exact pair_iterate hn hr
    | inr b => exact pair_pure hr

theorem pair_repeatedly {γ : Type} {next next' : γ → Walk (γ ⊕ β)}
    {Q : β → Walker → Walker → Prop} {a : γ}
    (h : Pair F s w w' (Walk.iterate next s.bound a) (Walk.iterate next' s.bound a) Q S) :
    Pair F s w w' (Walk.repeatedly next a) (Walk.repeatedly next' a) Q S := h

end Pair

/-! ## 2. Steady parts -/

/-- **A part that looks at the place of the cursor**, and moves nothing else. -/
structure Steady (m : Walk α) : Prop where
  same : ∀ s w w', w.cursor.Same w'.cursor → (m.outcome s w').1 = (m.outcome s w).1 ∧
    (m.outcome s w).2.cursor.Same (m.outcome s w').2.cursor
  keeps : ∀ s w, Walk.SameMarks w (m.outcome s w).2
  data : ∀ s w, (m.outcome s w).2.cursor.data = w.cursor.data
  inside : ∀ s w, w.cursor.Inside → (m.outcome s w).2.cursor.Inside
  awake : ∀ s w, (m.outcome s w).1 ≠ .error .settled

namespace Steady

theorem pure {a : α} : Steady (pure a) :=
  ⟨fun _ _ _ h => ⟨rfl, h⟩, fun _ _ => ⟨rfl, rfl⟩, fun _ _ => rfl, fun _ _ h => h, fun _ _ => nofun⟩

theorem fail {e : MatchError} : Steady (Walk.fail e : Walk α) :=
  ⟨fun _ _ _ h => ⟨rfl, h⟩, fun _ _ => ⟨rfl, rfl⟩, fun _ _ => rfl, fun _ _ h => h, fun _ _ => nofun⟩

theorem unexpected {token : Token} {e : Expected} : Steady (Walk.unexpected token e : Walk α) := fail

theorem bind {m : Walk α} {f : α → Walk β} (h : Steady m) (hf : ∀ a, Steady (f a)) :
    Steady (m >>= f) where
  same s w w' hw := by
    obtain ⟨hr, hc⟩ := h.same s w w' hw
    rw [Walk.outcome_bind, Walk.outcome_bind]
    cases ho : m.outcome s w with
    | mk r v =>
      cases ho' : m.outcome s w' with
      | mk r' v' =>
        rw [ho, ho'] at hr hc
        obtain rfl : r' = r := hr
        cases r' with
        | ok a => exact (hf a).same s v v' hc
        | error e => exact ⟨rfl, hc⟩
  keeps s w := by
    have hk := h.keeps s w
    rw [Walk.outcome_bind]
    cases ho : m.outcome s w with
    | mk r v =>
      rw [ho] at hk
      cases r with
      | ok a => exact hk.trans ((hf a).keeps s v)
      | error e => exact hk
  data s w := by
    have hd := h.data s w
    rw [Walk.outcome_bind]
    cases ho : m.outcome s w with
    | mk r v =>
      rw [ho] at hd
      cases r with
      | ok a => exact ((hf a).data s v).trans hd
      | error e => exact hd
  inside s w hw := by
    have hi := h.inside s w hw
    rw [Walk.outcome_bind]
    cases ho : m.outcome s w with
    | mk r v =>
      rw [ho] at hi
      cases r with
      | ok a => exact (hf a).inside s v hi
      | error e => exact hi
  awake s w := by
    have ha := h.awake s w
    rw [Walk.outcome_bind]
    cases ho : m.outcome s w with
    | mk r v =>
      rw [ho] at ha
      cases r with
      | ok a => exact (hf a).awake s v
      | error e => exact fun he => ha (congrArg Except.error (Except.error.inj he))

theorem ite {p : Prop} [Decidable p] {m m' : Walk α} (h : Steady m) (h' : Steady m') :
    Steady (if p then m else m') := by
  split
  · exact h
  · exact h'

theorem note {e : Event} : Steady (Walk.note e) :=
  ⟨fun _ _ _ h => ⟨rfl, h⟩, fun _ _ => ⟨rfl, rfl⟩, fun _ _ => rfl, fun _ _ h => h, fun _ _ => nofun⟩

theorem seek {position : Nat} : Steady (Walk.seek position) :=
  ⟨fun _ _ _ h => ⟨rfl, .seek h.data _⟩, fun _ _ => ⟨rfl, rfl⟩, fun _ _ => rfl,
    fun _ _ _ => Cursor.seek_inside _ _, fun _ _ => nofun⟩

theorem step : Steady Walk.step where
  same s w w' h := by
    rw [outcome_step, outcome_step, h.step.1]
    exact ⟨rfl, h.step.2⟩
  keeps s w := by
    rw [outcome_step]
    exact ⟨rfl, rfl⟩
  data s w := by
    rw [outcome_step]
    cases hs : w.cursor.step with
    | mk r c =>
      cases r with
      | ok token =>
        obtain ⟨_, -, hd, -⟩ := Cursor.step_ok hs
        exact hd
      | error e => exact (Cursor.step_error hs).1
  inside s w hw := by
    rw [outcome_step]
    cases hs : w.cursor.step with
    | mk r c =>
      cases r with
      | ok token => exact (Cursor.step_bounds hs hw).2.1
      | error e =>
        obtain ⟨hd, hp⟩ := Cursor.step_error hs
        rw [Cursor.Inside, hd, hp]
        exact hw
  awake s w := by
    rw [outcome_step]
    cases w.cursor.step.1 with
    | ok token => exact nofun
    | error e => exact nofun

theorem skipContainer : Steady Walk.skipContainer where
  same s w w' h := by
    rw [outcome_skipContainer, outcome_skipContainer, h.skipContainer.1]
    exact ⟨rfl, h.skipContainer.2⟩
  keeps s w := by
    rw [outcome_skipContainer]
    exact ⟨rfl, rfl⟩
  data s w := by
    rw [outcome_skipContainer]
    cases hs : w.cursor.skipContainer with
    | mk r c =>
      cases r with
      | ok _ =>
        obtain ⟨_, -, hd, -⟩ := Cursor.skipContainer_ok hs
        exact hd
      | error e =>
        rw [Cursor.skipContainer_error hs]
  inside s w hw := by
    rw [outcome_skipContainer]
    cases hs : w.cursor.skipContainer with
    | mk r c =>
      cases r with
      | ok _ => exact (Cursor.skipContainer_bounds hs hw).2.1
      | error e =>
        rw [Cursor.skipContainer_error hs]
        exact hw
  awake s w := by
    rw [outcome_skipContainer]
    cases w.cursor.skipContainer.1 with
    | ok _ => exact nofun
    | error e => exact nofun

theorem skipValue {token : Token} : Steady (Walk.skipValue token) :=
  skipContainer.ite (pure.ite unexpected)

theorem nextPart {closing : TokenKind} {e : Expected} : Steady (Walk.nextPart closing e) :=
  step.bind fun _ => (step.bind fun _ => pure).ite (pure.ite unexpected)

theorem memberStart {key : Token} : Steady (Walk.memberStart key) :=
  (step.bind fun _ => step.ite unexpected).ite unexpected

theorem opening : Steady Walk.opening := step.bind fun _ => fail.ite pure

theorem closing : Steady Walk.closing := step.bind fun _ => pure.ite fail

/-- A part that looks at the walker first, but only at its cursor. -/
theorem get_bind {f : Walker → Walk α} (h : ∀ w, Steady (f w))
    (hf : ∀ w w' : Walker, w.cursor.Same w'.cursor → f w' = f w) : Steady (get >>= f) where
  same s w w' hw := by
    have outcome (w : Walker) : (get >>= f).outcome s w = (f w).outcome s w := rfl
    rw [outcome, outcome, hf w w' hw]
    exact (h w).same s w w' hw
  keeps s w := (h w).keeps s w
  data s w := (h w).data s w
  inside s w := (h w).inside s w
  awake s w := (h w).awake s w

theorem spanFrom {offset : Nat} : Steady (Walk.spanFrom offset) :=
  get_bind (fun _ => pure.ite fail) fun w w' h => by simp only [h.position, h.data]

end Steady

/-- **Two walks have gone on to one place**, and nothing else is different. -/
structure Onward (w w' v v' : Walker) : Prop where
  cursor : v.cursor.Same v'.cursor
  marks : Walk.SameMarks w v
  marks' : Walk.SameMarks w' v'
  data : v.cursor.data = w.cursor.data
  data' : v'.cursor.data = w'.cursor.data
  inside : w.cursor.Inside → v.cursor.Inside
  inside' : w'.cursor.Inside → v'.cursor.Inside

/-- **Two walks at one place** do the same. -/
theorem Steady.pair {m : Walk α} (h : Steady m) (hw : w.cursor.Same w'.cursor) :
    Pair F s w w' m m (fun _ => Onward w w') Never := by
  have hsame := h.same s w w' hw
  have onward : Onward w w' (m.outcome s w).2 (m.outcome s w').2 :=
    ⟨hsame.2, h.keeps s w, h.keeps s w', h.data s w, h.data s w', h.inside s w, h.inside s w'⟩
  have hawake := h.awake s w
  unfold Pair
  generalize m.outcome s w = r at *
  generalize m.outcome s w' = r' at *
  obtain ⟨r, v⟩ := r
  obtain ⟨r', v'⟩ := r'
  obtain rfl : r' = r := hsame.1
  rcases r' with (_ | _) | a
  · exact absurd rfl hawake
  · exact .fails
  · exact .ends onward

/-- Passing what is at some place brings two walks over one document together. -/
theorem pair_passAt {position : Nat} (h : w'.cursor.data = w.cursor.data) :
    Pair F s w w' (Walk.passAt position) (Walk.passAt position) (fun _ => Onward w w') Never := by
  refine Pair.next (Q := fun _ v v' => v = { w with cursor := w.cursor.seek position } ∧
    v' = { w' with cursor := w'.cursor.seek position }) (pair_modify ⟨rfl, rfl⟩) fun _ v v' hv => ?_
  obtain ⟨rfl, rfl⟩ := hv
  have hsteady : Steady (Walk.step >>= Walk.skipValue) := Steady.step.bind fun _ => .skipValue
  refine (hsteady.pair (.seek h position)).mono (fun _ v v' hv => ?_) fun _ _ h => h
  exact ⟨hv.cursor, ⟨hv.marks.state, hv.marks.slots⟩, ⟨hv.marks'.state, hv.marks'.slots⟩, hv.data,
    hv.data', fun _ => hv.inside (Cursor.seek_inside _ _),
    fun _ => hv.inside' (Cursor.seek_inside _ _)⟩

theorem Onward.trans {v v' x x' : Walker} (h : Onward w w' v v') (h' : Onward v v' x x') :
    Onward w w' x x' :=
  ⟨h'.cursor, h.marks.trans h'.marks, h.marks'.trans h'.marks', h'.data.trans h.data,
    h'.data'.trans h.data', fun hi => h'.inside (h.inside hi), fun hi => h'.inside' (h.inside' hi)⟩

end Sift
