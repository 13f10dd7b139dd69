import Sift.Proofs.Order.Jobs
import Sift.Proofs.Order.Pair

/-!
# Two walks that know the same

Two walkers are `Peers` under an outlook if they know the same of all that can be seen there: the
same slots, and of the same buckets, with no two values that differ. One of them may know a value
where the other has only settled that nothing matters there any more.

Peers that mark buckets with values that go with each other stay peers (`Peers.sown`). So two lists
of jobs for the same buckets, in whatever order they are done, leave peers (`pair_jobs`): if one of
them settles the walk the other does as well.
-/

namespace Sift

open Resolution

variable {c : Course} {s : Setting} {k : Outlook} {E E' : Nat → Bool → Prop}
  {w w' v v' : Walker}

/-! ## 1. Two walkers -/

/-- **Two walkers know the same.** -/
structure Peers (c : Course) (k : Outlook) (w w' : Walker) : Prop where
  under : w.Under c k
  under' : w'.Under c k
  slots : ∀ i, k.sight i → w'.slots[i]? = w.slots[i]?
  known : ∀ j, k.View c j → (w'.Known j ↔ w.Known j)
  agree : State.Agree (k.View c) w.state w'.state

/-- Two walkers that are not settled. -/
structure Awake (s : Setting) (w w' : Walker) : Prop where
  first : s.isSettled w.state = false
  second : s.isSettled w'.state = false

/-- **Two walkers at one place** that know the same, and are not settled. -/
structure Twins (c : Course) (s : Setting) (k : Outlook) (w w' : Walker) : Prop
    extends Peers c k w w' where
  cursor : w.cursor.Same w'.cursor
  awake : Awake s w w'

/-- Two walks over one document have come back to where they were. -/
structure BackAt (w w' v v' : Walker) : Prop where
  first : Walk.SamePlace w v
  second : Walk.SamePlace w' v'
  data : v'.cursor.data = v.cursor.data

theorem BackAt.same (h : BackAt w w' v v') (hw : w.cursor.Same w'.cursor) :
    v.cursor.Same v'.cursor := ⟨h.data, by rw [h.first, h.second, hw.position]⟩

/-- Two walkers that have been settled by values that go with each other. -/
def Struck (c : Course) (k : Outlook) (w w' : Walker) : Prop :=
  State.Agree (k.View c) w.state w'.state

theorem Resolution.State.Agree.symm {V : Nat → Prop} {s₁ s₂ : State} (h : State.Agree V s₁ s₂) :
    State.Agree V s₂ s₁ := fun i hi u u' hu hu' => (h i hi u' u hu' hu).symm

theorem Peers.symm (h : Peers c k w w') : Peers c k w' w :=
  ⟨h.under', h.under, fun i hi => (h.slots i hi).symm, fun j hj => (h.known j hj).symm,
    h.agree.symm⟩

/-- Values that are given to buckets which nothing else gives a value. -/
def Tips (c : Course) (E : Nat → Bool → Prop) : Prop :=
  ∀ i u, E i u → (c.tree.node i).kind = .leaf ∨ (c.tree.node i).kind = .barrier

/-- **What peers come to agrees** if the values that they are given do. -/
theorem Peers.agree_of_sown (h : Peers c k w w') (hk : k.Apt c s) (h₁ : Sown c k E w v)
    (h₂ : Sown c k E' w' v') (hE : ∀ i u u', E i u → E' i u' → u = u') (htips : Tips c E)
    (htips' : Tips c E') : State.Agree (k.View c) v.state v'.state := by
  have ht := h₁.under.fit.tree
  have ht' := h₂.under.fit.tree
  have hview : k.View c = v.state.tree.View k.stall k.loops := by
    rw [ht]
    rfl
  rw [hview]
  refine State.agree_of_evidence h₁.under.fit.good.valid (ht'.trans ht.symm)
    (fun b hb => by rw [ht]; exact hk.barrier b hb) hE
    (fun i u he => State.combine?_of_tip (by rw [ht']; exact htips i u he))
    (fun i u he => State.combine?_of_tip (by rw [ht]; exact htips' i u he)) fun i hi => ?_
  rw [← hview] at hi
  by_cases hknown : w.Known i
  · -- what has been known keeps its value
    left
    intro u u' hu hu'
    rw [h₁.known i hi hknown] at hu
    rw [h₂.known i hi ((h.known i hi).mpr hknown)] at hu'
    exact h.agree i hi u u' hu hu'
  · right
    have hknown' : ¬ w'.Known i := fun hk => hknown ((h.known i hi).mp hk)
    exact ⟨fun u hu => (h₁.evidence i u hi hu).resolve_left hknown,
      fun u hu => (h₂.evidence i u hi hu).resolve_left hknown'⟩

/-- **One knows what the other knows** once it knows all buckets that the other has been given
    values for. -/
theorem Peers.known_of_sown (h : Peers c k w w') (hk : k.Apt c s) (h₁ : Sown c k E w v)
    (h₂ : Sown c k E' w' v') (hagree : State.Agree (k.View c) v.state v'.state)
    (hgiven : ∀ j u, E' j u → v.Known j) {j : Nat} (hj : k.View c j) (hknown : v'.Known j) :
    v.Known j := by
  have ht := h₁.under.fit.tree
  have ht' := h₂.under.fit.tree
  have hst := h₁.under.stall
  have hst' := h₂.under.stall
  have hview : k.View c = v.state.tree.View v.state.stall k.loops := by
    rw [ht, hst]
    rfl
  rw [hview] at hj hagree
  refine State.known_of_evidence h₁.under.fit.good h₂.under.fit.good (ht'.trans ht.symm)
    (hst'.trans hst.symm) (fun i hi => h₂.under.waiting i (hst'.symm.trans hi))
    (fun b hb => by rw [ht]; exact hk.barrier b hb) hagree (fun i u hi hu => ?_) j hj hknown
  rw [← hview] at hi
  rcases h₂.evidence i u hi hu with hw | he | hc
  · exact .inl (h₁.known_of_known hi ((h.known i hi).mp hw))
  · exact .inl (hgiven i u he)
  · exact .inr hc

/-- **Peers that are given values which go with each other stay peers**, if each knows all buckets
    that the other has been given values for. -/
theorem Peers.sown (h : Peers c k w w') (hk : k.Apt c s) (h₁ : Sown c k E w v)
    (h₂ : Sown c k E' w' v') (hagree : State.Agree (k.View c) v.state v'.state)
    (hgiven : ∀ j u, E' j u → v.Known j) (hgiven' : ∀ j u, E j u → v'.Known j) :
    Peers c k v v' where
  under := h₁.under
  under' := h₂.under
  slots i hi := by rw [h₁.slots i hi, h₂.slots i hi, h.slots i hi]
  known _ hj := ⟨h.known_of_sown hk h₁ h₂ hagree hgiven hj,
    h.symm.known_of_sown hk h₂ h₁ hagree.symm hgiven' hj⟩
  agree := hagree

/-! ## 2. Two parts that mark -/

/-- **Two parts that mark the same buckets** with values that go with each other. -/
theorem pair_sows {B B' : Nat → Prop} {m m' : Walk Unit} (hk : k.Apt c s) (h : Peers c k w w')
    (h₁ : Walk.Sows c s k E B w m) (h₂ : Walk.Sows c s k E' B' w' m')
    (hE : ∀ i u u', E i u → E' i u' → u = u') (htips : Tips c E) (htips' : Tips c E')
    (hB : ∀ b u, E' b u → B b) (hB' : ∀ b u, E b u → B' b) :
    Pair (Replays c s k.waits) s w w' m m'
      (fun _ v v' => (Peers c k v v' ∧ Awake s v v') ∧ BackAt w w' v v')
      (fun v v' => Struck c k v v' ∧ BackAt w w' v v') := by
  have agree {v v' : Walker} (h₁ : Sown c k E w v) (h₂ : Sown c k E' w' v') :=
    h.agree_of_sown hk h₁ h₂ hE htips htips'
  have data {v v' : Walker} (h₁ : Sown c k E w v) (h₂ : Sown c k E' w' v') :
      v'.cursor.data = v.cursor.data := h₂.under.fit.data.trans h₁.under.fit.data.symm
  -- where one is settled, the other would have been
  have settled {x y : Walker} (hx : x.Under c k) (hy : y.Under c k)
      (hknown : ∀ j, k.View c j → y.Known j → x.Known j) (hs : s.isSettled y.state = true) :
      s.isSettled x.state = true :=
    hk.watch x.state y.state hx.fit.tree hy.fit.tree hx.stall hy.stall hknown hs
  refine pair_of_meets h₁ h₂ (fun _ _ v v' hv hv' => ⟨rfl, ?_⟩)
    (fun v v' hv hv' => ⟨agree hv.1.1 hv'.1.1, hv.1.2, hv'.1.2, data hv.1.1 hv'.1.1⟩)
    (fun _ v v' hv hv' => ?_) fun _ v v' hv hv' => ?_
  · obtain ⟨⟨hsown, hp, hk₁⟩, hs⟩ := hv
    obtain ⟨⟨hsown', hp', hk₂⟩, hs'⟩ := hv'
    have hagree := agree hsown hsown'
    exact ⟨⟨h.sown hk hsown hsown' hagree (fun j u hj => hk₁ j (hB j u hj))
      fun j u hj => hk₂ j (hB' j u hj), hs, hs'⟩, hp, hp', data hsown hsown'⟩
  · obtain ⟨⟨hsown, -⟩, hs⟩ := hv
    obtain ⟨⟨hsown', -, hk₂⟩, hs'⟩ := hv'
    have hset := settled hsown'.under hsown.under (fun j hj hkn =>
      h.symm.known_of_sown hk hsown' hsown (agree hsown hsown').symm
        (fun j u hj => hk₂ j (hB' j u hj)) hj hkn) hs
    rw [hset] at hs'
    cases hs'
  · obtain ⟨⟨hsown, -, hk₁⟩, hs⟩ := hv
    obtain ⟨⟨hsown', -⟩, hs'⟩ := hv'
    have hset := settled hsown.under hsown'.under (fun j hj hkn =>
      h.known_of_sown hk hsown hsown' (agree hsown hsown')
        (fun j u hj => hk₁ j (hB j u hj)) hj hkn) hs'
    rw [hset] at hs
    cases hs

/-! ## 3. Jobs in another order -/

/-- **Two loops come to the same verdict** wherever they see the same. -/
def Loop.Agrees (c : Course) (s : Setting) (k : Outlook) (l l' : Loop) : Prop :=
  ∀ w w', Enters c l w → Enters c l' w' → (∀ i, k.sight i → w'.slots[i]? = w.slots[i]?) →
    w.cursor.Same w'.cursor → Pair (Replays c s k.waits) s w w' l.tally l'.tally
      (fun v x x' => v.decider = none → x.cursor.Same x'.cursor) Never

theorem Loop.Agrees.gives {l l' : Loop} {slots : Slots} {u u' : Bool} (h : l.Agrees c s k l')
    (ht : l'.target = l.target) (hu : l.Gives c s k slots u) (hu' : l'.Gives c s k slots u') :
    u = u' := by
  have target {i i' : Nat} (hi : l.target = .slot i) (hi' : l'.target = .slot i') : i' = i := by
    rw [ht, hi] at hi'
    cases hi'
    rfl
  cases hu with
  | noArray hi closed =>
    cases hu' with
    | noArray => rfl
    | array hi' found opens =>
      obtain rfl := target hi hi'
      rw [closed _ found] at opens
      cases opens
  | @array i span x y v hi found opens enters seen start tally =>
    cases hu' with
    | noArray hi' closed =>
      obtain rfl := target hi hi'
      rw [closed _ found] at opens
      cases opens
    | @array i' span' x' y' v' hi' found' _ enters' seen' start' tally' =>
      obtain rfl := target hi hi'
      rw [found] at found'
      cases found'
      have hpair := h x x' enters enters' (fun j hj => (seen' j hj).trans (seen j hj).symm)
        ⟨enters'.fit.data.trans enters.fit.data.symm, start'.trans start.symm⟩
      unfold Pair at hpair
      rw [tally, tally'] at hpair
      cases hpair
      rfl

/-- **Two jobs for one bucket** that can give it only the same. -/
structure Job.Peer (c : Course) (s : Setting) (k : Outlook) (j j' : Job) : Prop where
  bucket : j'.bucket = j.bucket
  gives : ∀ slots u u', j.Gives c s k slots u → j'.Gives c s k slots u' → u = u'

theorem Job.Peer.ask {u : Value} {t : Test} : (Job.ask u t).Peer c s k (.ask u t) :=
  ⟨rfl, fun _ _ _ h h' => h.trans h'.symm⟩

theorem Job.Peer.deny {l l' : Loop} (h : l'.bucket = l.bucket) :
    (Job.deny l).Peer c s k (.deny l') := ⟨h, fun _ _ _ h h' => h.trans h'.symm⟩

theorem Job.Peer.replay {l l' : Loop} (h : l.Agrees c s k l') (hb : l'.bucket = l.bucket)
    (ht : l'.target = l.target) : (Job.replay l).Peer c s k (.replay l') :=
  ⟨hb, fun _ _ _ => h.gives ht⟩

/-- **Two lists of jobs for the same buckets**, in whatever order. -/
structure Job.Matched (c : Course) (s : Setting) (k : Outlook) (jobs jobs' : List Job) : Prop where
  belongs : ∀ j ∈ jobs, j.Belongs c k
  belongs' : ∀ j ∈ jobs', j.Belongs c k
  nodup : (jobs.map Job.bucket).Nodup
  peer : ∀ j' ∈ jobs', ∃ j ∈ jobs, j.Peer c s k j'
  buckets : (jobs.map Job.bucket).Perm (jobs'.map Job.bucket)

theorem Job.Matched.nil : Job.Matched c s k [] [] :=
  ⟨nofun, nofun, List.nodup_nil, nofun, .refl _⟩

theorem Job.mem_buckets {jobs : List Job} {b : Nat} :
    (∃ j ∈ jobs, b = j.bucket) ↔ b ∈ jobs.map Job.bucket := by
  simp only [List.mem_map, eq_comm]

theorem Job.Given.tips {jobs : List Job} {slots : Slots} (h : ∀ j ∈ jobs, j.Belongs c k) :
    Tips c (Job.Given c s k jobs slots) := by
  rintro i u ⟨j, hj, rfl, -⟩
  exact (h j hj).tip

/-- What jobs can give goes with what the matching ones can. -/
theorem Job.Matched.given {jobs jobs' : List Job} (h : Job.Matched c s k jobs jobs')
    {slots slots' : Slots} (hs : ∀ i, k.sight i → slots'[i]? = slots[i]?) {b : Nat} {u u' : Bool}
    (hu : Job.Given c s k jobs slots b u) (hu' : Job.Given c s k jobs' slots' b u') : u = u' := by
  obtain ⟨j, hj, rfl, hg⟩ := hu
  obtain ⟨j', hj', hb, hg'⟩ := hu'
  obtain ⟨j₂, hj₂, hpeer⟩ := h.peer j' hj'
  obtain rfl : j₂ = j :=
    List.inj_on_of_nodup_map h.nodup hj₂ hj (hpeer.bucket.symm.trans hb.symm)
  exact hpeer.gives slots u u' hg
    (hg'.congr (h.belongs' j' hj') fun i hi => (hs i hi).symm)

/-- **Jobs in another order** leave walks that know the same, or settle both. -/
theorem pair_jobs {jobs jobs' : List Job} (hk : k.Apt c s) (hv : s.bound = c.data.length + 1)
    (h : Twins c s k w w') (hm : Job.Matched c s k jobs jobs') :
    Pair (Replays c s k.waits) s w w' (jobs.forM Job.run) (jobs'.forM Job.run) (fun _ => Twins c s k)
      (fun v v' => Struck c k v v' ∧ v.cursor.Same v'.cursor) := by
  refine (pair_sows hk h.toPeers (Job.sows_all hk hv hm.belongs h.under h.awake.first)
    (Job.sows_all hk hv hm.belongs' h.under' h.awake.second) (fun _ _ _ => hm.given h.slots)
    (Job.Given.tips hm.belongs) (Job.Given.tips hm.belongs') ?_ ?_).mono
    (fun _ v v' hv => ⟨hv.1.1, hv.2.same h.cursor, hv.1.2⟩)
    fun v v' hv => ⟨hv.1, hv.2.same h.cursor⟩
  · rintro b u ⟨j', hj', hb, -⟩
    rw [Job.mem_buckets, hm.buckets.mem_iff, ← Job.mem_buckets]
    exact ⟨j', hj', hb⟩
  · rintro b u ⟨j, hj, hb, -⟩
    rw [Job.mem_buckets, ← hm.buckets.mem_iff, ← Job.mem_buckets]
    exact ⟨j, hj, hb⟩

end Sift
