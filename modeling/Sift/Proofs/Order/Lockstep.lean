import Sift.Proofs.Order.Twins

/-!
# Two walks in lockstep

`Node.Lockstep c s k n n'` says that two walks that know the same, one of which follows the node `n`
and the other `n'`, go from token to token together and know the same in the end, or are both settled
by values that go with each other.
-/

namespace Sift

open Resolution

variable {c : Course} {s : Setting} {k : Outlook} {w w' v v' : Walker}

/-! ## 1. Steps of two walks -/

/-- Peers with the same marks as before, who still see the same. -/
theorem Peers.of_state (h : Peers c k w w') (hs : v.state = w.state) (hs' : v'.state = w'.state)
    (hfit : v.Fit c) (hfit' : v'.Fit c) (hslots : ∀ i, k.sight i → v'.slots[i]? = v.slots[i]?) :
    Peers c k v v' where
  under := ⟨hfit, by rw [hs, h.under.stall], by rw [hs]; exact h.under.waiting⟩
  under' := ⟨hfit', by rw [hs', h.under'.stall], by rw [hs']; exact h.under'.waiting⟩
  slots := hslots
  known j hj := by
    rw [Walker.Known, Walker.Known, hs, hs']
    exact h.known j hj
  agree := by
    rw [hs, hs']
    exact h.agree

theorem Awake.of_state (h : Awake s w w') (hs : v.state = w.state) (hs' : v'.state = w'.state) :
    Awake s v v' := ⟨by rw [hs, h.first], by rw [hs', h.second]⟩

theorem Peers.onward (h : Peers c k w w') (ho : Onward w w' v v') : Peers c k v v' :=
  h.of_state ho.marks.state ho.marks'.state
    (Walk.fit_of_cursor h.under.fit ho.marks ho.data (ho.inside h.under.fit.inside))
    (Walk.fit_of_cursor h.under'.fit ho.marks' ho.data' (ho.inside' h.under'.fit.inside))
    fun i hi => by rw [ho.marks.slots, ho.marks'.slots, h.slots i hi]

theorem Awake.onward (h : Awake s w w') (ho : Onward w w' v v') : Awake s v v' :=
  h.of_state ho.marks.state ho.marks'.state

theorem Twins.onward (h : Twins c s k w w') (ho : Onward w w' v v') : Twins c s k v v' :=
  ⟨h.toPeers.onward ho, ho.cursor, h.awake.onward ho⟩

/-- What looks at nothing but the place of the cursor. -/
theorem Twins.steady {α : Type} {m : Walk α} (h : Twins c s k w w') (hm : Steady m) :
    Pair (Replays c s k.waits) s w w' m m (fun _ => Twins c s k) Never :=
  (hm.pair h.cursor).mono (fun _ _ _ ho => h.onward ho) fun _ _ h => h

/-- Both know of a bucket, or neither does. -/
theorem Peers.isUnknown (h : Peers c k w w') {b : Nat} (hb : k.View c b) :
    Pair (Replays c s k.waits) s w w' (Walk.isUnknown b) (Walk.isUnknown b)
      (fun r v v' => v = w ∧ v' = w' ∧ (r = true ↔ w.state.get b = .unknown)) Never := by
  have unknown {w : Walker} (hfit : w.Fit c) : Walk.Meets s w (Walk.isUnknown b)
      (fun r v => v = w ∧ (r = true ↔ w.state.get b = .unknown))
      (Walk.Stops (Replays c s k.waits) fun _ => False) := by
    have safe : Walk.Safe c s (fun _ => False) (fun _ => False) (fun _ => False) w
        (Walk.isUnknown b) (fun r v => v = w ∧ (r = true ↔ w.state.get b = .unknown))
        fun _ => False := Walk.safe_isUnknown hfit hb.lt
    exact safe.always
  refine pair_of_ends (unknown h.under.fit) (unknown h.under'.fit) fun r r' v v' hv hv' => ?_
  refine ⟨?_, hv.1, hv'.1, hv.2⟩
  rw [Bool.eq_iff_iff, hv.2, hv'.2]
  exact (not_iff_not.mp (h.known b hb)).symm

/-- What is captured is captured by both. -/
theorem Twins.capture {token : Token} {u : Value} {slot : Option Nat} (h : Twins c s k w w')
    (hi : ∀ i, slot = some i → i < c.count) (ho : token.offset < w.cursor.position) :
    Pair (Replays c s k.waits) s w w' (Walk.capture token u slot) (Walk.capture token u slot)
      (fun _ => Twins c s k) Never := by
  have captured {w : Walker} (hfit : w.Fit c) (ho : token.offset < w.cursor.position) :
      Walk.Meets s w (Walk.capture token u slot) (fun _ v => v.Fit c ∧
        Walk.Captured slot (.between token.offset w.cursor.position) w v)
      (Walk.Stops (Replays c s k.waits) fun _ => False) := by
    have safe : Walk.Safe c s (fun _ => False) (fun _ => False) (fun _ => True) w
        (Walk.capture token u slot) (fun _ => Walk.Captured slot _ w) fun _ => False :=
      Walk.safe_capture hfit hi (fun _ _ => trivial) ho
    refine Walk.Meets.mono safe (fun _ _ h => h.2) fun e _ h => ?_
    cases e with
    | settled => exact h.2.2.2
    | failed e => exact h.1.elim
  refine pair_of_ends (captured h.under.fit ho) (captured h.under'.fit
    (by rw [h.cursor.position]; exact ho)) fun _ _ v v' hv hv' => ⟨rfl, ?_⟩
  obtain ⟨hfit, hv⟩ := hv
  obtain ⟨hfit', hv'⟩ := hv'
  refine ⟨h.of_state hv.state hv'.state hfit hfit' fun i hi => ?_, ?_,
    h.awake.of_state hv.state hv'.state⟩
  · have hslots := h.slots i hi
    by_cases hfill : slot = some i ∧ w.slots[i]? = some none
    · rw [hv.filled i hfill.1 hfill.2, hv'.filled i hfill.1 (hslots.trans hfill.2),
        h.cursor.position]
    · rw [Classical.not_and_iff_not_or_not] at hfill
      rw [hv.kept i hfill, hv'.kept i (by rw [hslots]; exact hfill), hslots]
  · rw [hv.cursor, hv'.cursor]
    exact h.cursor

/-! ## 2. Loops over the array that is read -/

/-- What is left of two loops that have come to a verdict. -/
theorem Peers.left {l l' : Loop} {u u' : Walk.Verdict} (h : Peers c k w w') (hl : l.Belongs c k)
    (hl' : l'.Belongs c k) (hleft : Left c l w u v) (hleft' : Left c l' w' u' v') :
    Peers c k v v' := by
  obtain ⟨hv, hsame, hslots⟩ := hl.left h.under hleft
  obtain ⟨hv', hsame', hslots'⟩ := hl'.left h.under' hleft'
  refine ⟨hv, hv', fun i hi => ?_, fun j hj => ?_, fun j hj u u' hu hu' => ?_⟩
  · rw [hslots i hi, hslots' i hi, h.slots i hi]
  · rw [Walker.Known, Walker.Known, hsame j hj, hsame' j hj]
    exact h.known j hj
  · rw [hsame j hj] at hu
    rw [hsame' j hj] at hu'
    exact h.agree j hj u u' hu hu'

/-- Both walks mark a bucket with the same. -/
theorem Peers.mark (h : Peers c k w w') (hk : k.Apt c s) {b : Nat} {u : Bool}
    (hb : c.Bucket k.stall b)
    (htip : (c.tree.node b).kind = .leaf ∨ (c.tree.node b).kind = .barrier)
    (hu : w.state.get b = .unknown) (hu' : w'.state.get b = .unknown) :
    Pair (Replays c s k.waits) s w w' (Walk.mark b u) (Walk.mark b u)
      (fun _ v v' => (Peers c k v v' ∧ Awake s v v') ∧ BackAt w w' v v')
      (fun v v' => Struck c k v v' ∧ BackAt w w' v v') := by
  have tips : Tips c fun b' u' => b' = b ∧ u' = u := by
    rintro _ _ ⟨rfl, -⟩
    exact htip
  exact pair_sows hk h (Walk.sows_mark h.under hb hu) (Walk.sows_mark h.under' hb hu')
    (fun _ _ _ h h' => h.2.trans h'.2.symm) tips tips (fun _ _ h => h.1) fun _ _ h => h.1

/-- **Both walks run a loop** of which nothing is known. -/
theorem Twins.run {l l' : Loop} (h : Twins c s k w w') (hk : k.Apt c s)
    (hv : s.bound = c.data.length + 1) (hl : l.Belongs c k) (hl' : l'.Belongs c k)
    (hb : l'.bucket = l.bucket) (hagrees : l.Agrees c s k l')
    (hu : w.state.get l.bucket = .unknown) :
    Pair (Replays c s k.waits) s w w' l.halting.run l'.halting.run (fun _ => Twins c s k)
      (Struck c k) := by
  have hu' : w'.state.get l'.bucket = .unknown := by
    have := h.known _ (hl.fits.bucket.view hl.clear)
    rw [hb]
    exact not_not.mp fun hk => this.mp hk hu
  have tally {l : Loop} {w : Walker} (hl : l.Belongs c k) (hw : w.Under c k)
      (hu : w.state.get l.bucket = .unknown) :=
    Walk.meets_tally (hl.enters hw hu) (Walk.secure hv l.body _ hl.body) hv
  rw [Loop.run_eq, Loop.run_eq, hb]
  refine Pair.next (((hagrees w w' (hl.enters h.under hu) (hl'.enters h.under' hu') h.slots
    h.cursor).and (tally hl h.under hu) (tally hl' h.under' hu')).mono (fun _ _ _ h => h)
    fun _ _ h => h.1) fun verdict v v' hverdict => ?_
  obtain ⟨hsame, hleft, hleft'⟩ := hverdict
  have hpeers := h.toPeers.left hl hl' hleft hleft'
  refine Pair.bind ((hpeers.mark hk hl.fits.bucket (.inr hl.fits.kind) hleft.unknown
    (hb ▸ hleft'.unknown)).mono (fun _ _ _ h => h) fun _ _ h => h.1) fun _ x x' hx => ?_
  obtain ⟨⟨hx, hawake⟩, hback⟩ := hx
  -- what is left of the array is passed from where the verdict says
  cases hd : verdict.decider with
  | none => exact pair_pure ⟨hx, hback.same (hsame hd), hawake⟩
  | some t =>
    refine Pair.next (pair_passAt hback.data) fun _ y y' hy => ?_
    refine ((Steady.skipContainer.pair hy.cursor).mono (fun _ z z' hz => ?_) fun _ _ h => h.elim)
    exact ⟨hx.onward (hy.trans hz), hz.cursor, hawake.onward (hy.trans hz)⟩

/-- **Both walks run the loops of a node**, one after the other. -/
theorem Twins.runLoops {loops loops' : List Loop} (h : Twins c s k w w') (hk : k.Apt c s)
    (hv : s.bound = c.data.length + 1) (hloops : ∀ l ∈ loops, l.Belongs c k)
    (hloops' : ∀ l ∈ loops', l.Belongs c k)
    (hall : List.Forall₂ Node.ReorderedLoop loops loops')
    (hagrees : ∀ l ∈ loops, ∀ l' ∈ loops', Node.ReorderedLoop l l' → l.Agrees c s k l') :
    Pair (Replays c s k.waits) s w w' (Walk.runLoops (loops.map Loop.halting))
      (Walk.runLoops (loops'.map Loop.halting)) (fun _ => Twins c s k) (Struck c k) := by
  refine pair_get_bind ?_
  dsimp only
  rw [List.forM_eq_forM, List.forM_map, List.forM_map, h.cursor.position]
  refine pair_forM hall (fun l hl l' hl' hr v v' hvv => ?_) h
  refine Pair.next (hvv.steady .seek) fun _ x x' hx => ?_
  have hb : l'.halting.bucket = l.bucket := by rw [Loop.halting_bucket, hr.bucket]
  rw [hb, Loop.halting_bucket]
  have hbelongs := hloops l hl
  refine Pair.next (hx.isUnknown (hbelongs.fits.bucket.view hbelongs.clear)) fun r y y' hy => ?_
  obtain ⟨rfl, rfl, hun⟩ := hy
  split
  · next hr' =>
    exact hx.run hk hv hbelongs (hloops' l' hl') hr.bucket (hagrees l hl l' hl' hr) (hun.mp hr')
  · exact (hx.steady .skipContainer).mono (fun _ _ _ h => h) fun _ _ h => h.elim

/-! ## 3. Nodes -/

/-- **Two nodes are followed in lockstep.** -/
structure Node.Lockstep (c : Course) (s : Setting) (k : Outlook) (n n' : Node) : Prop where
  read : ∀ w w' token, Twins c s k w w' →
    Pair (Replays c s k.waits) s w w' (n.halting.read token) (n'.halting.read token)
      (fun _ => Twins c s k) (Struck c k)
  finish : ∀ w w' token u, Twins c s k w w' → token.offset < w.cursor.position →
    Pair (Replays c s k.waits) s w w' (n.halting.finish token u) (n'.halting.finish token u)
      (fun _ => Twins c s k) (fun v v' => Struck c k v v' ∧ v.cursor.Same v'.cursor)
  jobs : ∀ j' ∈ n'.jobs, ∃ j ∈ n.jobs, j.Peer c s k j'

/-- **The value of a node** is read and done with in lockstep. -/
theorem Node.Lockstep.handle {n n' : Node} {token : Token} (h : n.Lockstep c s k n')
    (hv : s.bound = c.data.length + 1) (hn : n.Belongs c k) (hn' : n'.Belongs c k)
    (hw : Twins c s k w w') (ho : token.kind ≠ .finish → token.offset < w.cursor.position) :
    Pair (Replays c s k.waits) s w w' (n.halting.handle token) (n'.halting.handle token)
      (fun _ => Twins c s k) (fun v v' => Struck c k v v' ∧ (token.kind.isScalar = true → v.cursor.Same v'.cursor)) := by
  have secure := (Walk.secure hv n k.stall hn.fits).read w token hw.under.fit hw.under.stall ho
  have secure' := (Walk.secure hv n' k.stall hn'.fits).read w' token hw.under'.fit hw.under'.stall
    (by rw [hw.cursor.position]; exact ho)
  refine Pair.bind (((h.read w w' token hw).and secure secure').mono (fun _ _ _ h => h)
    fun v v' hs => ⟨hs.1, fun hscalar => ?_⟩) fun u v v' hr => ?_
  · -- no scalar settles a walk while it is read
    have := hs.2.1.2.2.2
    rw [hscalar] at this
    cases this
  · exact (h.finish v v' token u hr.1 hr.2.1.2.2.1).mono (fun _ _ _ h => h)
      fun _ _ hs => ⟨hs.1, fun _ => hs.2⟩

section Children

variable {n n' : Node}

/-- The child of a name, in both orders. -/
theorem Node.Reordered.find_child (h : n.Reordered n') (ht : n'.Tidy) (name : String) :
    n.children.find? (·.1 = name) = none ∧ n'.children.find? (·.1 = name) = none ∨
      ∃ child ∈ n.children, ∃ child' ∈ n'.children, Node.ReorderedChild child child' ∧
        n.children.find? (·.1 = name) = some child ∧
          n'.children.find? (·.1 = name) = some child' := by
  cases hf : n.children.find? (·.1 = name) with
  | none =>
    refine .inl ⟨rfl, List.find?_eq_none.mpr fun child' hc' => ?_⟩
    obtain ⟨child, hc, hr⟩ := h.mem_children hc'
    rw [hr.name]
    exact List.find?_eq_none.mp hf child hc
  | some child =>
    have hc := List.mem_of_find?_eq_some hf
    have hname := List.find?_some hf
    obtain ⟨order, hall, hperm⟩ := h.children_after
    obtain ⟨child', ho, hr⟩ := Node.mem_of_forall₂ hall.flip hc
    have hc' := hperm.mem_iff.mp ho
    refine .inr ⟨child, hc, child', hc', hr, rfl, ?_⟩
    cases hf' : n'.children.find? (·.1 = name) with
    | none =>
      have := List.find?_eq_none.mp hf' child' hc'
      rw [ReorderedChild.name hr] at this
      exact absurd hname this
    | some child₂ =>
      have hname₂ := List.find?_some hf'
      simp only [decide_eq_true_eq] at hname hname₂
      rw [ht.child_of_name (List.mem_of_find?_eq_some hf') hc'
            (by rw [hname₂, ReorderedChild.name hr, hname])]

variable (hr : n.Reordered n') (hn : n.Belongs c k) (hn' : n'.Belongs c k)
  (hc : ∀ child ∈ n.children, ∀ child' ∈ n'.children, Node.ReorderedChild child child' →
    child.2.Lockstep c s k child'.2)

include hr hn hn' hc

/-- The jobs of the children match. -/
theorem Node.Reordered.childJobs_matched : Job.Matched c s k
    (n.children.flatMap fun c => c.2.jobs) (n'.children.flatMap fun c => c.2.jobs) := by
  refine ⟨hn.of_childJobs, hn'.of_childJobs, hn.childJobs_nodup, fun j' hj' => ?_,
    hr.childJobs_buckets⟩
  obtain ⟨child', hm', hj'⟩ := List.mem_flatMap.mp hj'
  obtain ⟨child, hm, hcc⟩ := hr.mem_children hm'
  obtain ⟨j, hj, hpeer⟩ := (hc child hm child' hm' hcc).jobs j' hj'
  exact ⟨j, List.mem_flatMap.mpr ⟨child, hm, hj⟩, hpeer⟩

variable (h : Twins c s k w w') (hv : s.bound = c.data.length + 1)

include h hv

/-- The value of a member. -/
theorem Twins.memberValue {key first : Token}
    (ho : first.kind ≠ .finish → first.offset < w.cursor.position) :
    Pair (Replays c s k.waits) s w w'
      (Walk.memberValue (n.children.map fun c => (c.1, c.2.halting)) key first)
      (Walk.memberValue (n'.children.map fun c => (c.1, c.2.halting)) key first)
      (fun _ => Twins c s k) (Struck c k) := by
  unfold Walk.memberValue
  rw [handlerOf?_eq, handlerOf?_eq]
  have skip : Pair (Replays c s k.waits) s w w' (Walk.skipValue first) (Walk.skipValue first)
      (fun _ => Twins c s k) (Struck c k) :=
    (h.steady .skipValue).mono (fun _ _ _ h => h) fun _ _ h => h.elim
  cases Walk.nameOf? key with
  | none => exact skip
  | some name =>
    rw [Option.bind_some, Option.bind_some]
    rcases hr.find_child hn'.tidy name with ⟨hf, hf'⟩ | ⟨child, hm, child', hm', hcc, hf, hf'⟩
    · rw [hf, hf']
      exact skip
    · rw [hf, hf']
      exact ((hc child hm child' hm' hcc).handle hv (hn.child hm) (hn'.child hm') h ho).mono
        (fun _ _ _ h => h) fun _ _ h => h.1

variable (hk : k.Apt c s)

include hk

/-- What there is to do for children that have had no value. -/
theorem Twins.missingAll : Pair (Replays c s k.waits) s w w'
    (Walk.missingAll (n.children.map fun c => (c.1, c.2.halting)))
    (Walk.missingAll (n'.children.map fun c => (c.1, c.2.halting))) (fun _ => Twins c s k)
    (Struck c k) := by
  rw [Node.missingAll_eq, Node.missingAll_eq]
  exact (pair_jobs hk hv h (hr.childJobs_matched hn hn' hc)).mono (fun _ _ _ h => h)
    fun _ _ h => h.1

/-- **The members of an object.** -/
theorem Twins.members : Pair (Replays c s k.waits) s w w'
    (Walk.members (n.children.map fun c => (c.1, c.2.halting)))
    (Walk.members (n'.children.map fun c => (c.1, c.2.halting))) (fun _ => Twins c s k)
    (Struck c k) := by
  refine Pair.next (h.steady .step) fun key v v' hvv => ?_
  split
  · exact Twins.missingAll hr hn hn' hc hvv hv hk
  · refine Pair.bind (pair_repeatedly (pair_iterate (I := fun _ _ => Twins c s k)
      (fun _ key x x' hx => ?_) hvv)) fun _ x x' hx => Twins.missingAll hr hn hn' hc hx hv hk
    have start {x : Walker} (hfit : x.Fit c) : Walk.Meets s x (Walk.memberStart key)
        (fun first y => first.kind ≠ .finish → first.offset < y.cursor.position)
        (fun _ _ => True) := by
      have safe : Walk.Safe c s MatchError.OfDocument (fun _ => False) (fun _ => False) x
          (Walk.memberStart key) _ fun _ => False := Walk.safe_memberStart hfit
      exact Walk.Meets.mono safe (fun _ _ h => h.2.2.2.lt) fun _ _ _ => trivial
    refine Pair.next (((hx.steady .memberStart).and (start hx.under.fit) (start hx.under'.fit)).mono
      (fun _ _ _ h => h) fun _ _ h => h.1) fun first y y' hy => ?_
    refine Pair.bind (Twins.memberValue hr hn hn' hc hy.1 hv hy.2.1) fun _ z z' hz => ?_
    refine Pair.next (hz.steady .nextPart) fun next u u' hu => ?_
    cases next with
    | some key => exact pair_pure hu
    | none => exact pair_pure hu

end Children

/-! ## 4. A node whose parts are in lockstep -/

/-- A container of which a value is made. -/
theorem pair_container {make : Bytes → Value} {token : Token} {m m' : Walk Unit}
    (h : Pair (Replays c s k.waits) s w w' m m' (fun _ => Twins c s k) (Struck c k)) :
    Pair (Replays c s k.waits) s w w' (Walk.container make token m) (Walk.container make token m')
      (fun _ => Twins c s k) (Struck c k) := by
  refine h.bind fun _ v v' hv => ?_
  refine Pair.next (hv.steady .spanFrom) fun span x x' hx => pair_get_bind ?_
  rw [hx.cursor.data]
  exact pair_pure hx

section Parts

variable {n n' : Node} (hr : n.Reordered n') (hn : n.Belongs c k) (hn' : n'.Belongs c k)
  (hl : ∀ l ∈ n.allLoops, ∀ l' ∈ n'.allLoops, Node.ReorderedLoop l l' → l.Agrees c s k l')

include hr hn hn'

/-- Loops that have no array match. -/
theorem Node.Reordered.denied_matched :
    Job.Matched c s k (n.loops.map Job.deny) (n'.loops.map Job.deny) := by
  refine ⟨hn.of_deny, hn'.of_deny, hn.denied_nodup, fun j' hj' => ?_, hr.denied_buckets⟩
  obtain ⟨l', hl', rfl⟩ := List.mem_map.mp hj'
  obtain ⟨l, hm, hll⟩ := Node.mem_of_forall₂ hr.loops hl'
  exact ⟨_, List.mem_map.mpr ⟨l, hm, rfl⟩, .deny (Node.ReorderedLoop.bucket hll)⟩

include hl

/-- **The tasks of a node match** if those for its loops and those for its children do. -/
theorem Node.Reordered.tasks_matched {u : Value} {loops loops' children children' : List Job}
    (hloops : Job.Matched c s k loops loops') (hchildren : Job.Matched c s k children children')
    (hsub : loops.Sublist (n.loops.map .deny))
    (hsub' : children.Sublist (n.children.flatMap fun c => c.2.jobs)) :
    Job.Matched c s k (n.tasks u loops children) (n'.tasks u loops' children') := by
  refine ⟨hn.of_tasks hloops.belongs hchildren.belongs, hn'.of_tasks hloops.belongs'
    hchildren.belongs', hn.tasks_nodup hsub hsub', fun j' hj' => ?_,
    hr.tasks_buckets hloops.buckets hchildren.buckets⟩
  rcases Node.mem_tasks.mp hj' with ⟨t, ht, rfl⟩ | hj' | hj' | ⟨t, ht, rfl⟩ | ⟨l', hl', rfl⟩
  · rw [hr.tests] at ht
    exact ⟨_, Node.mem_tasks.mpr (.inl ⟨t, ht, rfl⟩), .ask⟩
  · obtain ⟨j, hj, hpeer⟩ := hloops.peer j' hj'
    exact ⟨j, Node.mem_tasks.mpr (.inr (.inl hj)), hpeer⟩
  · obtain ⟨j, hj, hpeer⟩ := hchildren.peer j' hj'
    exact ⟨j, Node.mem_tasks.mpr (.inr (.inr (.inl hj))), hpeer⟩
  · rw [hr.afterTests] at ht
    exact ⟨_, Node.mem_tasks.mpr (.inr (.inr (.inr (.inl ⟨t, ht, rfl⟩)))), .ask⟩
  · obtain ⟨l, hm, hll⟩ := Node.mem_of_forall₂ hr.afterLoops hl'
    have hll : Node.ReorderedLoop l l' := hll
    exact ⟨_, Node.mem_tasks.mpr (.inr (.inr (.inr (.inr ⟨l, hm, rfl⟩)))),
      .replay (hl l (List.mem_append_right _ hm) l' (List.mem_append_right _ hl') hll) hll.bucket
          hll.target⟩

variable (hc : ∀ child ∈ n.children, ∀ child' ∈ n'.children, Node.ReorderedChild child child' →
  child.2.Lockstep c s k child'.2)

include hc

/-- What is left to do with a value that has been read matches. -/
theorem Node.Reordered.finish_matched (token : Token) (u : Value) : Job.Matched c s k
    (n.tasks u (n.loopTasks token) (n.childTasks token))
    (n'.tasks u (n'.loopTasks token) (n'.childTasks token)) := by
  refine hr.tasks_matched hn hn' hl ?_ ?_ (n.loopTasks_sublist token) (n.childTasks_sublist token)
  · unfold Node.loopTasks
    split
    · exact .nil
    · exact hr.denied_matched hn hn'
  · unfold Node.childTasks
    split
    · exact .nil
    · exact hr.childJobs_matched hn hn' hc

/-- What there is to do without a value matches. -/
theorem Node.Reordered.jobs_matched : Job.Matched c s k n.jobs n'.jobs := by
  rw [Node.jobs_eq, Node.jobs_eq]
  exact hr.tasks_matched hn hn' hl (hr.denied_matched hn hn') (hr.childJobs_matched hn hn' hc)
    (.refl _) (.refl _)

variable (hk : k.Apt c s) (hv : s.bound = c.data.length + 1)

include hk hv

/-- **The value of the node is read in lockstep.** -/
theorem Node.Reordered.read {token : Token} (h : Twins c s k w w') :
    Pair (Replays c s k.waits) s w w' (n.halting.read token) (n'.halting.read token)
      (fun _ => Twins c s k) (Struck c k) := by
  have skip (h : Twins c s k w w') : Pair (Replays c s k.waits) s w w' Walk.skipContainer
      Walk.skipContainer (fun _ => Twins c s k) (Struck c k) :=
    (h.steady .skipContainer).mono (fun _ _ _ h => h) fun _ _ h => h.elim
  have hchildren : n'.children.isEmpty = n.children.isEmpty := by
    obtain ⟨order, hperm, hall⟩ := hr.children
    rw [Bool.eq_iff_iff, List.isEmpty_iff_length_eq_zero, List.isEmpty_iff_length_eq_zero,
      hperm.length_eq, hall.length_eq]
  have hloops : n'.loops.isEmpty = n.loops.isEmpty := by
    rw [Bool.eq_iff_iff, List.isEmpty_iff_length_eq_zero, List.isEmpty_iff_length_eq_zero,
      hr.loops.length_eq]
  rw [Node.halting_eq n, Node.halting_eq n']
  show Pair (Replays c s k.waits) s w w' (Walk.readValue _ _ token) (Walk.readValue _ _ token) _ _
  unfold Walk.readValue
  rw [List.isEmpty_map, List.isEmpty_map, List.isEmpty_map, List.isEmpty_map, hchildren, hloops]
  split
  · refine pair_container ?_
    split
    · exact skip h
    · exact Twins.members hr hn hn' hc h hv hk
  · refine pair_container ?_
    split
    · exact skip h
    · exact h.runLoops hk hv (fun l hm => hn.loop (List.mem_append_left _ hm))
        (fun l hm => hn'.loop (List.mem_append_left _ hm)) hr.loops
        fun l hm l' hm' hll => hl l (List.mem_append_left _ hm) l' (List.mem_append_left _ hm') hll
  · split
    · exact pair_pure h
    · exact pair_fail

/-- **The value of the node is done with in lockstep.** -/
theorem Node.Reordered.finish {token : Token} {u : Value} (h : Twins c s k w w')
    (ho : token.offset < w.cursor.position) :
    Pair (Replays c s k.waits) s w w' (n.halting.finish token u) (n'.halting.finish token u)
      (fun _ => Twins c s k) (fun v v' => Struck c k v v' ∧ v.cursor.Same v'.cursor) := by
  rw [Node.finish_eq, Node.finish_eq, hr.slot]
  exact Pair.next (h.capture hn.fits.slot ho) fun _ _ _ hvv =>
    pair_jobs hk hv hvv (hr.finish_matched hn hn' hl hc token u)

/-- **Nodes whose parts are in lockstep are in lockstep.** -/
theorem Node.Reordered.lockstep : n.Lockstep c s k n' where
  read _ _ _ h := hr.read hn hn' hl hc hk hv h
  finish _ _ _ _ h ho := hr.finish hn hn' hl hc hk hv h ho
  jobs := (hr.jobs_matched hn hn' hl hc).peer

end Parts

end Sift
