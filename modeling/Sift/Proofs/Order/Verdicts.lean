import Sift.Proofs.Order.Lockstep

/-!
# Two loops come to one verdict

Two walks run a loop over the same array, with the body in two orders (`Abreast`). Where an element
begins, both know nothing below the loop and see the same slots, so they are twins under the outlook
of the loop (`Abreast.begun`). If the bodies are in lockstep, both make the same of the element
(`Abreast.element`) and in the end of the array (`Loop.agrees`).
-/

namespace Sift

open Resolution

variable {c : Course} {s : Setting} {k : Outlook} {l l' : Loop} {w w' w₁ w₁' : Walker}
  {first : Token} {any : Bool}

/-! ## 1. One element -/

/-- **Two walks that enter one loop**, with the body in two orders, and see the same. -/
structure Abreast (c : Course) (k : Outlook) (l l' : Loop) (w w' : Walker) : Prop where
  belongs : l.Belongs c k
  belongs' : l'.Belongs c k
  loop : Node.ReorderedLoop l l'
  enters : Enters c l w
  enters' : Enters c l' w'
  slots : ∀ i, k.sight i → w'.slots[i]? = w.slots[i]?

namespace Abreast

theorem valid (h : Abreast c k l l' w w') : c.tree.Valid :=
  h.enters.fit.tree ▸ h.enters.fit.good.valid

/-- The body can be seen in the loop. -/
theorem view_body (h : Abreast c k l l' w w') :
    (l.outlook k).View c (c.tree.node l.bucket).left := h.belongs.view_body h.valid

/-- **Where an element begins**, two walks know the same under the outlook of the loop. -/
theorem begun {x x' : Walker} (h : Abreast c k l l' w w') (hi : InLoop c l w x)
    (hi' : InLoop c l' w' x') (hb : Walk.Begun c l first w₁ x) (hb' : Walk.Begun c l' first w₁' x')
    (hsame : w₁.cursor.Same w₁'.cursor) : Twins c s (l.outlook k) x x' := by
  have hr := h.loop
  have unknown {j : Nat} (hj : (l.outlook k).View c j) : x.state.get j = .unknown :=
    hb.unknown j (hj.within _ rfl)
  have unknown' {j : Nat} (hj : (l.outlook k).View c j) : x'.state.get j = .unknown :=
    hb'.unknown j (by rw [hr.bucket]; exact hj.within _ rfl)
  have awake {l : Loop} {x : Walker} (hfit : x.Fit c) (hst : x.state.stall = some l.bucket)
      (hbody : x.state.get (c.tree.node l.bucket).left = .unknown) :
      s.isSettled x.state = false := by
    refine Bool.eq_false_iff.mpr fun hset => ?_
    simp only [Setting.isSettled, State.isSettled, hst, hfit.tree, Option.isNone_some,
      Bool.false_and, Bool.false_eq_true, if_false, State.isResolved_iff] at hset
    exact hset hbody
  refine ⟨⟨⟨hi.fit, hi.stall, fun i he => ?_⟩, ⟨hi'.fit, ?_, fun i he => ?_⟩, fun i hs => ?_,
    fun j hj => ?_, fun j hj u u' hu => ?_⟩, ?_, awake hi.fit hi.stall (unknown h.view_body),
    awake hi'.fit hi'.stall ?_⟩
  · cases he
    exact hi.unknown h.enters
  · rw [hi'.stall, hr.bucket]
    rfl
  · cases he
    rw [← hr.bucket]
    exact hi'.unknown h.enters'
  · rcases hs with hs | ⟨path, hs⟩
    · rw [hi.slots i fun hm => h.belongs.hidden i hm hs,
        hi'.slots i fun hm => h.belongs'.hidden i hm hs, h.slots i hs]
    · have hm := h.belongs.emptied i path hs
      rw [hb.empty i hm, hb'.empty i (hr.locals.symm ▸ hm)]
  · rw [Walker.Known, Walker.Known, unknown hj, unknown' hj]
  · rw [unknown hj] at hu
    cases hu
  · rw [hb.cursor, hb'.cursor]
    exact hsame
  · rw [hr.bucket]
    exact unknown' h.view_body

variable (h : Abreast c k l l' w w') (hv : s.bound = c.data.length + 1)
  (hbody : l.body.Belongs c (l.outlook k)) (hbody' : l'.body.Belongs c (l.outlook k))
  (hlock : l.body.Lockstep c s (l.outlook k) l'.body)

include h hv hbody hbody' hlock

/-- The body of an element is read by both, and what it comes to is the same. -/
theorem body {x x' : Walker} (hx : Twins c s (l.outlook k) x x') (hi : InLoop c l w x)
    (hi' : InLoop c l' w' x') (ho : first.kind ≠ .finish → first.offset < x.cursor.position) :
    Pair (Replays c s k.waits) s x x' (Walk.settles (l.body.halting.handle first))
      (Walk.settles (l'.body.halting.handle first)) (fun early y y' =>
        (∃ u, y.state.get (c.tree.node l.bucket).left = .value u ∧
          y'.state.get (c.tree.node l'.bucket).left = .value u) ∧
        y'.cursor.data = y.cursor.data ∧
        ((early && !first.kind.isScalar) = false → y.cursor.Same y'.cursor)) Never := by
  have ho' : first.kind ≠ .finish → first.offset < x'.cursor.position := by
    rw [hx.cursor.position]
    exact ho
  have secure {l : Loop} (hl : l.body.Fits c (some l.bucket)) :=
    Walk.secure hv l.body (some l.bucket) hl
  have hpair : Pair (Replays c s k.waits) s x x' (Walk.settles (l.body.halting.handle first))
      (Walk.settles (l'.body.halting.handle first)) (fun early y y' =>
        Struck c (l.outlook k) y y' ∧
        ((early && !first.kind.isScalar) = false → y.cursor.Same y'.cursor)) Never := by
    refine Pair.caught ((hlock.handle hv hbody hbody' hx ho).mono
      (fun _ y y' hy => ⟨hy.agree, fun _ => hy.cursor⟩) fun y y' hy => ⟨hy.1, fun hk => hy.2 ?_⟩)
    simpa using hk
  refine (hpair.and (Walk.meets_body h.enters (secure h.belongs.body) hi ho)
    (Walk.meets_body h.enters' (secure h.belongs'.body) hi' ho')).mono
    (fun early y y' hy => ?_) fun _ _ hy => hy.1
  obtain ⟨⟨hagree, hsame⟩, ⟨hiy, ⟨u, hu⟩, -⟩, hiy', ⟨u', hu'⟩, -⟩ := hy
  have : u = u' := hagree _ h.view_body u u' hu (by rw [← h.loop.bucket]; exact hu')
  subst this
  exact ⟨⟨u, hu, hu'⟩, hiy'.fit.data.trans hiy.fit.data.symm, hsame⟩

/-- **One element** comes to the same for both. -/
theorem element {m : Nat} (ht : Walk.Turn c l w (m + 1) first w₁)
    (ht' : Walk.Turn c l' w' (m + 1) first w₁') (hsame : w₁.cursor.Same w₁'.cursor) :
    Pair (Replays c s k.waits) s w₁ w₁'
      (Walk.element l.bucket (c.tree.node l.bucket).left l.mode l.locals l.body.halting
        (first, any))
      (Walk.element l'.bucket (c.tree.node l'.bucket).left l'.mode l'.locals l'.body.halting
        (first, any))
      (fun r v v' => (∀ next, r = .inl next → v.cursor.Same v'.cursor) ∧
        ∀ u, r = .inr u → u.decider = none → v.cursor.Same v'.cursor) Never := by
  refine Pair.next (pair_of_ends (Q := fun _ x x' =>
    (InLoop c l w x ∧ Walk.Begun c l first w₁ x) ∧ InLoop c l' w' x' ∧ Walk.Begun c l' first w₁' x')
    (Walk.meets_beginElement ht.loop h.enters) (Walk.meets_beginElement ht'.loop h.enters')
    fun _ _ _ _ hx hx' => ⟨rfl, hx, hx'⟩) fun _ x x' hx => ?_
  obtain ⟨⟨hi, hb⟩, hi', hb'⟩ := hx
  refine Pair.next (h.body hv hbody hbody' hlock (h.begun hi hi' hb hb' hsame) hi hi'
    (by rw [hb.cursor]; exact ht.lt)) fun early y y' hy => ?_
  obtain ⟨⟨u, hu, hu'⟩, hdata, hplace⟩ := hy
  refine Pair.next (pair_of_ends (Q := fun r z z' => r = u ∧ z.cursor = y.cursor ∧
    z'.cursor = y'.cursor) (Walk.meets_judge hu) (Walk.meets_judge hu')
    fun r r' z z' hz hz' => ?_) fun satisfied z z' hz => ?_
  · exact ⟨hz.1.trans hz'.1.symm, hz.1, by rw [hz.2], by rw [hz'.2]⟩
  obtain ⟨-, hz, hz'⟩ := hz
  rw [h.loop.mode]
  cases l.mode.decision satisfied with
  | some answer => exact pair_pure ⟨nofun, fun v he hd => by cases he; cases hd⟩
  | none =>
    have rest : Pair (Replays c s k.waits) s z z' (Walk.passRest early first)
        (Walk.passRest early first) (fun _ v v' => v.cursor.Same v'.cursor) Never := by
      unfold Walk.passRest
      split
      · refine (pair_passAt ?_).mono (fun _ _ _ hv => hv.cursor) fun _ _ h => h
        rw [hz, hz', hdata]
      · next hn =>
        refine pair_pure ?_
        rw [hz, hz']
        exact hplace (Bool.eq_false_iff.mpr hn)
    refine rest.next fun _ v v' hvv => ?_
    refine Pair.next (Steady.nextPart.pair hvv) fun next x x' hx => ?_
    cases next with
    | some next => exact pair_pure ⟨fun _ _ => hx.cursor, nofun⟩
    | none => exact pair_pure ⟨nofun, fun _ _ _ => hx.cursor⟩

/-! ## 2. All elements -/

/-- **The elements of an array** come to the same verdict for both. -/
theorem elements (hi : InLoop c l w w₁) (hi' : InLoop c l' w' w₁') (hw : w₁.cursor = w.cursor)
    (hw' : w₁'.cursor = w'.cursor) (hsame : w.cursor.Same w'.cursor) :
    Pair (Replays c s k.waits) s w₁ w₁'
      (Walk.elements l.bucket (c.tree.node l.bucket).left l.mode l.locals l.body.halting)
      (Walk.elements l'.bucket (c.tree.node l'.bucket).left l'.mode l'.locals l'.body.halting)
      (fun u v v' => u.decider = none → v.cursor.Same v'.cursor) Never := by
  have secure {l : Loop} (hl : l.body.Fits c (some l.bucket)) :
      Walk.Secure c s (some l.bucket) l.body := Walk.secure hv l.body (some l.bucket) hl
  have start : w₁.cursor.Same w₁'.cursor := by
    rw [hw, hw']
    exact hsame
  refine Pair.next (((Steady.step.pair start).and
    (Walk.meets_firstElement h.enters hv hi hw) (Walk.meets_firstElement h.enters' hv hi' hw')).mono
    (fun _ _ _ h => h) fun _ _ h => h.1) fun first x x' hx => ?_
  obtain ⟨hon, ht, ht'⟩ := hx
  split
  · rw [h.loop.mode]
    exact pair_pure fun _ => hon.cursor
  · refine pair_repeatedly (pair_iterate (I := fun m a y y' => Walk.Turn c l w m a.1 y ∧
      Walk.Turn c l' w' m a.1 y' ∧ y.cursor.Same y'.cursor) (fun m a y y' hy => ?_)
      ⟨ht, ht', hon.cursor⟩)
    obtain ⟨hy, hy', hyy⟩ := hy
    refine ((h.element hv hbody hbody' hlock hy hy' hyy).and
      (Walk.meets_element h.enters (secure h.belongs.body) hy)
      (Walk.meets_element h.enters' (secure h.belongs'.body) hy')).mono (fun r z z' hz => ?_)
      fun _ _ hz => hz.1
    obtain ⟨⟨hnext, hend⟩, hz, hz'⟩ := hz
    cases r with
    | inl next => exact ⟨hz, hz', hnext next rfl⟩
    | inr u => exact hend u rfl

end Abreast

/-! ## 3. Loops -/

/-- **Loops over bodies in lockstep** come to the same verdict wherever they see the same. -/
theorem Loop.agrees (hv : s.bound = c.data.length + 1) (hl : l.Belongs c k) (hl' : l'.Belongs c k)
    (hr : Node.ReorderedLoop l l') (hbody : l.body.Belongs c (l.outlook k))
    (hbody' : l'.body.Belongs c (l.outlook k))
    (hlock : l.body.Lockstep c s (l.outlook k) l'.body) : l.Agrees c s k l' := by
  intro w w' henters henters' hslots hsame
  have h : Abreast c k l l' w w' := ⟨hl, hl', hr, henters, henters', hslots⟩
  refine pair_modifyGet_bind ?_
  dsimp only
  refine Pair.next (pair_of_ends (Q := fun body x x' => (body = (c.tree.node l.bucket).left ∧
    x = { w with state := w.state.withStall (some l.bucket) }) ∧
    x' = { w' with state := w'.state.withStall (some l'.bucket) })
    (Walk.meets_bodyOf henters.enter henters) (Walk.meets_bodyOf henters'.enter henters')
    fun b b' x x' hx hx' => ?_) fun body x x' hx => ?_
  · exact ⟨by rw [hx.1, hx'.1, hr.bucket], hx, hx'.2⟩
  obtain ⟨⟨rfl, rfl⟩, rfl⟩ := hx
  have helements := h.elements hv hbody hbody' hlock henters.enter henters'.enter rfl rfl hsame
  rw [hr.bucket] at helements ⊢
  refine helements.next fun verdict x x' hx => ?_
  exact Pair.next (Q := fun _ y y' => y.cursor = x.cursor ∧ y'.cursor = x'.cursor)
    (pair_modify ⟨rfl, rfl⟩) fun _ y y' hy => pair_pure fun hd => by
      rw [hy.1, hy.2]
      exact hx hd

/-! ## 4. Nodes -/

/-- A loop over a body in another order has the same outlook. -/
theorem Node.ReorderedLoop.outlook (h : Node.ReorderedLoop l l') (k : Outlook) :
    l'.outlook k = l.outlook k := by
  have hloops : (· ∈ l'.body.loopBuckets) = (· ∈ l.body.loopBuckets) :=
    funext fun _ => propext h.body.mem_loopBuckets
  have hsight : l'.sight k.sight = l.sight k.sight := funext fun _ =>
    propext (or_congr Iff.rfl (exists_congr fun _ => h.body.places_iff))
  rw [Loop.outlook, Loop.outlook, h.bucket, hloops, hsight]

/-- **A node and what it is in another order** are followed in lockstep. -/
theorem Node.lockstep (hv : s.bound = c.data.length + 1) (hvalid : c.tree.Valid) (n : Node) :
    ∀ {n' : Node} {k : Outlook}, k.Apt c s → n.Reordered n' → n.Belongs c k → n'.Belongs c k →
      n.Lockstep c s k n' := by
  induction n using Node.induct with
  | h n children loops afterLoops =>
    intro n' k hk hr hn hn'
    refine hr.lockstep hn hn' (fun l hl l' hl' hll => ?_) (fun child hc child' hc' hcc =>
      children child hc hk hcc.node (hn.child hc) (hn'.child hc')) hk hv
    have hbody := hn.body hl
    have hbody' := hn'.body hl'
    rw [hll.outlook] at hbody'
    have hapt : (l.outlook k).Apt c s := (hn.loop hl).apt hvalid
    refine Loop.agrees hv (hn.loop hl) (hn'.loop hl') hll hbody hbody' ?_
    rcases List.mem_append.mp hl with hl | hl
    · exact loops l hl hapt hll.body hbody hbody'
    · exact afterLoops l hl hapt hll.body hbody hbody'

end Sift
