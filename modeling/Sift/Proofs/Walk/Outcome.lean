import Sift.Proofs.Walk.Halting

/-!
# What comes of a walk

A walk that starts with a walker comes to a result or halts, with another walker either way.
`Meets s w m Q H` says of the walk `m` from `w` that `Q` holds where it ends, and `H` where it
halts.

There is one rule for each way to put walks together (`Meets.bind`, `meets_settles`,
`meets_restoring`, `meets_forM`, `meets_iterate`) and one for each thing that a walk does. A
statement about a larger walk is put together from them, and nothing else looks into the monad.
-/

namespace Sift

/-! ## 1. Outcomes -/

/-- What comes of a walk that starts with a walker. -/
def WalkOf.outcome {ε α : Type} (s : Setting) (m : WalkOf ε α) (w : Walker) :
    Except ε α × Walker :=
  (m.run s).run.run w

namespace Walk

variable {ε α β : Type} {s : Setting} {w : Walker}

/-- `Q` holds where the walk from `w` ends, and `H` where it halts. -/
def Meets (s : Setting) (w : Walker) (m : Walk α) (Q : α → Walker → Prop)
    (H : Halt → Walker → Prop) : Prop :=
  match m.outcome s w with
  | (.ok a, w') => Q a w'
  | (.error h, w') => H h w'

variable {Q : α → Walker → Prop} {H : Halt → Walker → Prop}

theorem Meets.mono {m : Walk α} {Q' : α → Walker → Prop} {H' : Halt → Walker → Prop}
    (h : Meets s w m Q H) (ho : ∀ a w', Q a w' → Q' a w')
    (hh : ∀ e w', H e w' → H' e w') : Meets s w m Q' H' := by
  unfold Meets at h ⊢
  split at h
  · exact ho _ _ h
  · exact hh _ _ h

theorem Meets.and {m : Walk α} {Q' : α → Walker → Prop} {H' : Halt → Walker → Prop}
    (h : Meets s w m Q H) (h' : Meets s w m Q' H') :
    Meets s w m (fun a w' => Q a w' ∧ Q' a w') (fun e w' => H e w' ∧ H' e w') := by
  unfold Meets at h h' ⊢
  split at h <;> simp_all

/-- What holds where a part of a walk halts: `P` if it is settled, and `F` if it fails. -/
def Stops (F P : Walker → Prop) : Halt → Walker → Prop
  | .settled, w => P w
  | .failed _, w => F w

theorem Stops.mono {F P P' : Walker → Prop} (hp : ∀ w, P w → P' w) :
    ∀ e w, Stops F P e w → Stops F P' e w
  | .settled, w, h => hp w h
  | .failed _, _, h => h

theorem meets_true {m : Walk α} : Meets s w m (fun _ _ => True) fun _ _ => True := by
  unfold Meets
  split <;> trivial

/-- Where a part ends, it is told how it has been come there. -/
theorem Meets.told {m : Walk α} (h : Meets s w m Q H) :
    Meets s w m (fun a w' => Q a w' ∧ m.outcome s w = (.ok a, w')) H := by
  unfold Meets at h ⊢
  split at h
  · next heq =>
    simp only [heq]
    exact ⟨h, trivial⟩
  · next heq => simpa only [heq] using h

/-- Where a part fails, it is told how. -/
theorem Meets.told_failure {m : Walk α} {F P : Walker → Prop} (h : Meets s w m Q (Stops F P)) :
    Meets s w m Q (Stops (fun w' => ∃ e, m.outcome s w = (.error (.failed e), w')) P) := by
  unfold Meets at h ⊢
  split at h
  · next heq => simpa only [heq] using h
  · next halt w' heq =>
    simp only [heq]
    cases halt with
    | settled => exact h
    | failed e => exact ⟨e, rfl⟩

theorem outcome_bind (m : WalkOf ε α) (f : α → WalkOf ε β) :
    (m >>= f).outcome s w =
      match m.outcome s w with
      | (.ok a, w') => (f a).outcome s w'
      | (.error h, w') => (.error h, w') := by
  show (ExceptT.run (m s >>= fun a => f a s)).run w = _
  simp only [ExceptT.run_bind, StateT.run_bind, WalkOf.outcome, ReaderT.run]
  rcases h : StateT.run (ExceptT.run (m s)) w with ⟨_ | a, w'⟩ <;> rfl

/-- **One walk after the other.** -/
theorem Meets.bind {m : Walk α} {f : α → Walk β} {Q' : β → Walker → Prop}
    (h : Meets s w m Q H) (hf : ∀ a w', Q a w' → Meets s w' (f a) Q' H) :
    Meets s w (m >>= f) Q' H := by
  unfold Meets at h ⊢
  rw [outcome_bind]
  split at h
  · next a w' heq =>
    simp only [heq]
    exact hf a w' h
  · next heq => simpa only [heq] using h

theorem meets_pure {a : α} (h : Q a w) : Meets s w (pure a) Q H := h

theorem meets_fail {e : MatchError} (h : H (.failed e) w) : Meets s w (fail e) Q H := h

theorem meets_throw {e : Halt} (h : H e w) : Meets s w (throw e) Q H := h

theorem meets_get {Q : Walker → Walker → Prop} (h : Q w w) : Meets s w get Q H := h

theorem meets_read {Q : Setting → Walker → Prop} (h : Q s w) : Meets s w read Q H := h

theorem meets_set {w' : Walker} {Q : PUnit → Walker → Prop} (h : Q ⟨⟩ w') :
    Meets s w (set w') Q H := h

theorem meets_modify {f : Walker → Walker} {Q : Unit → Walker → Prop} (h : Q () (f w)) :
    Meets s w (modify f) Q H := h

theorem meets_modifyGet {f : Walker → α × Walker} (h : Q (f w).1 (f w).2) :
    Meets s w (modifyGet f) Q H := h

/-! ## 2. Walks made of walks -/

theorem outcome_observing (m : WalkOf ε α) :
    (observing m : WalkOf ε (Except ε α)).outcome s w =
      ((.ok (m.outcome s w).1, (m.outcome s w).2) : Except ε (Except ε α) × Walker) := by
  show (ExceptT.run (tryCatch (Except.ok <$> m s) fun e => pure (Except.error e))).run w = _
  unfold WalkOf.outcome ReaderT.run
  simp only [ExceptT.run_tryCatch, ExceptT.run_map, StateT.run_bind, StateT.run_map]
  rcases h : StateT.run (ExceptT.run (m s)) w with ⟨_ | a, w'⟩ <;> rfl

theorem meets_observing {m : Walk α} {Q : Except Halt α → Walker → Prop}
    (h : Meets s w m (fun a => Q (.ok a)) (fun e => Q (.error e))) :
    Meets s w (observing m) Q H := by
  unfold Meets at h ⊢
  rw [outcome_observing]
  split at h
  · next heq => simpa only [heq] using h
  · next heq => simpa only [heq] using h

/-- What is so after a part, where it is told whether it has been settled. -/
def Caught (Q : Bool → Walker → Prop) (H : Halt → Walker → Prop) :
    Except Halt Unit → Walker → Prop
  | .ok _ => Q false
  | .error .settled => Q true
  | .error (.failed e) => H (.failed e)

/-- A part that settles is caught, one that fails is not. -/
theorem meets_settles {part : Walk Unit} {Q : Bool → Walker → Prop}
    (h : Meets s w part (fun _ => Q false) fun e => Caught Q H (.error e)) :
    Meets s w (settles part) Q H := by
  refine (meets_observing (Q := Caught Q H) ?_).bind fun r w' hr => ?_
  · exact h
  · rcases r with (_ | e) | _ <;> exact hr

theorem meets_restoring {part restore : Walk Unit} {Q : Unit → Walker → Prop}
    (h : Meets s w part (fun _ w' => Meets s w' restore Q H)
      (fun e w' => Meets s w' restore (fun _ => H e) H)) :
    Meets s w (restoring part restore) Q H := by
  refine (meets_observing (Q := fun r w' => match r with
    | .ok _ => Meets s w' restore Q H
    | .error e => Meets s w' restore (fun _ => H e) H) h).bind fun r w' hr => ?_
  cases r with
  | ok _ => exact Meets.bind hr fun _ _ h => h
  | error e => exact Meets.bind hr fun _ _ h => h

/-- **One thing after the other.** `I rest` holds while `rest` is still to be done. -/
theorem meets_forM {f : α → Walk PUnit} {I : List α → Walker → Prop} :
    ∀ {l : List α} {w : Walker}, I l w →
      (∀ a rest w, a ∈ l → I (a :: rest) w → Meets s w (f a) (fun _ => I rest) H) →
      Meets s w (l.forM f) (fun _ => I []) H
  | [], _, h, _ => h
  | a :: rest, w, h, hf => by
    rw [List.forM_eq_forM, List.forM_cons]
    exact (hf a rest w List.mem_cons_self h).bind fun _ w' h' =>
      meets_forM h' fun b rest w hb => hf b rest w (List.mem_cons_of_mem a hb)

/-- **Turn after turn**, where each keeps `I` and the fuel `n` outlasts them. -/
theorem meets_iterate {next : α → Walk (α ⊕ β)} {Q : β → Walker → Prop}
    {I : Nat → α → Walker → Prop}
    (hn : ∀ n a w, I (n + 1) a w → Meets s w (next a)
      (fun r w' => match r with
        | .inl a => I n a w'
        | .inr b => Q b w') H)
    (h0 : ∀ a w, ¬ I 0 a w) :
    ∀ {n : Nat} {a : α} {w : Walker}, I n a w → Meets s w (iterate next n a) Q H
  | 0, a, w, h => absurd h (h0 a w)
  | n + 1, a, w, h => by
    refine (hn n a w h).bind fun r w' hr => ?_
    cases r with
    | inl a => exact meets_iterate hn h0 hr
    | inr b => exact hr

theorem meets_repeatedly {next : α → Walk (α ⊕ β)} {Q : β → Walker → Prop} {a : α}
    (h : Meets s w (iterate next s.bound a) Q H) :
    Meets s w (repeatedly next a) Q H := h

/-! ## 3. What a walk does -/

theorem meets_note {e : Event} {Q : Unit → Walker → Prop}
    (h : Q () { w with trail := e :: w.trail }) : Meets s w (note e) Q H := h

theorem meets_seek {position : Nat} {Q : Unit → Walker → Prop}
    (h : Q () { w with cursor := w.cursor.seek position }) :
    Meets s w (seek position) Q H := h

theorem meets_step {Q : Token → Walker → Prop}
    (hok : ∀ token cursor, w.cursor.step = (.ok token, cursor) →
      Q token { w with cursor, trail := .stepped :: w.trail })
    (herr : ∀ e cursor, w.cursor.step = (.error e, cursor) →
      H (.failed (.lex e)) { w with cursor, trail := .stepped :: w.trail }) :
    Meets s w step Q H := by
  refine (meets_note (Q := fun _ w' => w' = { w with trail := .stepped :: w.trail }) rfl).bind
    fun _ w' hw => ?_
  subst hw
  refine (meets_get (Q := fun v w' => v = w' ∧ w' = { w with trail := .stepped :: w.trail })
    ⟨rfl, rfl⟩).bind fun v w' hv => ?_
  obtain ⟨rfl, rfl⟩ := hv
  rcases hs : w.cursor.step with ⟨e | token, cursor⟩
  · exact (meets_set (Q := fun _ w' => w' = _) rfl).bind fun _ _ h => h ▸ herr e cursor hs
  · exact (meets_set (Q := fun _ w' => w' = _) rfl).bind fun _ _ h => h ▸ hok token cursor hs

theorem meets_skipContainer {Q : Unit → Walker → Prop}
    (hok : ∀ stop cursor, w.cursor.skipContainer = (.ok stop, cursor) →
      Q () { w with cursor, trail := .skipped :: w.trail })
    (herr : ∀ e cursor, w.cursor.skipContainer = (.error e, cursor) →
      H (.failed (.lex e)) { w with cursor, trail := .skipped :: w.trail }) :
    Meets s w skipContainer Q H := by
  refine (meets_note (Q := fun _ w' => w' = { w with trail := .skipped :: w.trail }) rfl).bind
    fun _ w' hw => ?_
  subst hw
  refine (meets_get (Q := fun v w' => v = w' ∧ w' = { w with trail := .skipped :: w.trail })
    ⟨rfl, rfl⟩).bind fun v w' hv => ?_
  obtain ⟨rfl, rfl⟩ := hv
  rcases hs : w.cursor.skipContainer with ⟨e | stop, cursor⟩
  · exact (meets_set (Q := fun _ w' => w' = _) rfl).bind fun _ _ h => h ▸ herr e cursor hs
  · exact (meets_set (Q := fun _ w' => w' = _) rfl).bind fun _ _ h => h ▸ hok stop cursor hs

end Walk

end Sift
