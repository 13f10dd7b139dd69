import Sift.Proofs.Walk.Elements

/-!
# Walks find out what is true

`answers` shows of every node that fits its tree and is tidy that its handler answers what is true,
in every scene that the node is right in. As with `secure`, the proof is one induction over the
node. What carries it through an object is that a child is fresh until its name has come up, and
from then on all is known of it (`Passed`); so of several members of one name the first is the one
that the child's tests and loops see.
-/

namespace Sift

open Resolution

variable {loops slots : Nat → Prop} {c : Course} {s : Setting} {stall : Option Nat} {told : Told}
  {k : Scene} {n : Node} {v? : Option Doc} {d : Doc} {l : Loop} {w w' : Walker}

namespace Walk

/-! ## 1. Loops -/

theorem Sure.of_loop {α : Type} {m : Walk α} {Q : α → Walker → Prop} {truth : Nat → Bool}
    (hl : l ∈ n.allLoops) (h : Sure c s told truth (· = l.bucket) (· ∈ l.body.slots) w m Q) :
    Sure c s told truth (· ∈ n.loopBuckets) n.BodySlot w m Q :=
  h.widen (fun _ hi => Node.mem_loopBuckets.mpr (.inl ⟨l, hl, hi.symm⟩)) fun _ hi => ⟨l, hl, hi⟩

/-- A loop of a node that is right may be run. -/
theorem runs_of_apt {inner : Doc → Nat → Bool} {items : List Doc} (hn : n.Fits c stall)
    (ht : n.Tidy) (hl : l ∈ n.allLoops) (hb : Answers c s (some l.bucket) told l.body)
    (hs : Stands c stall told k n.BodySlot w) (hu : w.state.get l.bucket = .unknown)
    (ha : l.Apt c told k v? inner) (hi : v?.bind Doc.items? = some items) :
    Runs c s told k l inner items w where
  enters := enters_loop hn hl hs.fit hs.stall hu
  stands := by
    rw [hs.stall]
    exact hs.mono fun _ hi => ⟨l, hl, hi⟩
  locals _ path hp := (ht.locals hl).mpr ⟨path, hp⟩
  answers := hb
  consistent := ha.consistent
  means := ha.means items hi
  tells := ha.tells items hi

/-- **The loops of a node over its array.** -/
theorem sure_runLoops {o : Token} {items : List Doc} {stop : Nat} (hn : n.Fits c stall)
    (ht : n.Tidy) (hb : ∀ l ∈ n.allLoops, Answers c s (some l.bucket) told l.body)
    (hbound : s.bound = c.data.length + 1) (hs : Stands c stall told k (· ∈ n.slots) w)
    (hp : Poised c told k (some (.array o items stop)) n (fun _ => none) w)
    (hd : (Doc.array o items stop).Lies c.data) (hpos : w.cursor.position = o.stop) :
    Sure c s told k.truth (· ∈ n.loopBuckets) n.BodySlot w (runLoops (n.loops.map Loop.halting))
      fun _ w' => n.loops ≠ [] → w'.cursor.position = stop := by
  have hlen : w.cursor.position ≤ c.data.length := hs.fit.data ▸ hs.fit.inside
  have hall : Doc.AllItems c.data stop w.cursor.position items := hpos ▸ hd.2.2
  refine sure_get_bind ?_
  dsimp only
  rw [List.forM_eq_forM, List.forM_map]
  refine (sure_forM (K := fun rest w' => rest ≠ n.loops → w'.cursor.position = stop) hs.fit hs.right
    (fun h => absurd rfl h) fun l rest w₁ hl hm₁ hfit₁ hr₁ _ => ?_).mono
    fun _ _ _ _ _ h hne => h (Ne.symm hne)
  have hl' : l ∈ n.allLoops := List.mem_append_left _ hl
  have hbucket : l.bucket ∈ n.buckets := Node.mem_buckets.mpr (.inr (.inl ⟨l, hl', rfl⟩))
  refine (reading_seek hfit₁ hlen).sure hr₁ |>.bind fun _ w₂ hm₂ hfit₂ hr₂ h₂ => ?_
  have hm := hm₁.trans hm₂
  have hs₂ := hs.moves (hm.mono (fun _ h => h) fun _ h => h.slot) hfit₂ hr₂
  have hp₂ : Poised c told k (some (.array o items stop)) n (fun _ => none) w₂ := hp.keep
    (fun b hb hk => hm.known_of_node hn hs.fit.tree hb hk)
    fun i path hi he => (KeepsPlaces.of_moves hm ht i path hi).trans he
  rw [Loop.halting_bucket]
  refine Safe.bind (Q := fun r w' => w' = w₂ ∧ (r = true ↔ w₂.state.get l.bucket = .unknown))
    (safe_isUnknown hfit₂ (hn.loop hl').1.bucket.lt) fun r w₃ _ _ h₃ => ?_
  obtain ⟨rfl, hr⟩ := h₃
  split
  · next hu =>
    have hfresh := hp₂.fresh hbucket (hr.mp hu)
    obtain ⟨inner, hapt⟩ := hfresh.loop hl
    have during := hs₂.during ht fun i hi =>
      hfresh.places i [] (Node.mem_places.mpr (.inl ⟨hi, rfl⟩))
    refine ((sure_runLoop (runs_of_apt hn ht hl' (hb l hl') during (hr.mp hu) hapt rfl) hbound
      (h₂.2 ▸ hall) hapt.answer).of_loop hl').mono fun _ _ _ _ _ h _ => h
  · exact ((reading_skip hfit₂ (h₂.2 ▸ hall.leaves)).sure hr₂).mono fun _ _ _ _ _ h _ => h.2

/-- A loop that waits, over what its slot holds. -/
theorem sure_runOver {inner : Doc → Nat → Bool} {d? : Option Doc} (hn : n.Fits c stall)
    (ht : n.Tidy) (hl : l ∈ n.allLoops) (hb : Answers c s (some l.bucket) told l.body)
    (hbound : s.bound = c.data.length + 1) (hs : Stands c stall told k n.BodySlot w)
    (hu : w.state.get l.bucket = .unknown) (ha : l.Apt c told k d? inner)
    (hd : ∀ d, d? = some d → d.Lies c.data) :
    Sure c s told k.truth (· = l.bucket) (· ∈ l.body.slots) w
      (runOver (d?.map Doc.span) l.halting) fun _ _ => True := by
  have he := enters_loop hn hl hs.fit hs.stall hu
  have hlen : w.cursor.position ≤ c.data.length := hs.fit.data ▸ hs.fit.inside
  -- without an array the loop is false
  have fails (hi : d?.bind Doc.items? = none) : Sure c s told k.truth (· = l.bucket)
      (· ∈ l.body.slots) w (mark l.bucket false) fun _ _ => True :=
    (sure_mark hs.fit hs.right he.loop.bucket hs.consistent hu
      (by rw [ha.answer, Loop.answer, hi]; rfl)).mono fun _ _ _ _ _ _ => trivial
  refine sure_get_bind ?_
  rw [Loop.halting_bucket]
  cases d? with
  | none => exact fails rfl
  | some d =>
    have hd := hd d rfl
    have harr := Doc.opensArray_iff hd
    rw [← hs.fit.data] at harr
    simp only [Option.map_some]
    split
    · next hopen =>
      cases d with
      | scalar t =>
        have hk := hd.1
        rw [show t.kind = .arrayStart from harr.mp hopen] at hk
        cases hk
      | object o _ _ =>
        have hk := hd.1
        rw [show o.kind = .arrayStart from harr.mp hopen] at hk
        cases hk
      | array o items stop =>
        have hstop : (Doc.array o items stop).span.offset + 1 = o.stop :=
          (hd.opening_stop (by rw [Doc.opening, hd.1]; rfl)).symm
        obtain ⟨hlt, hle, hin⟩ := hd.bounds
        rw [hstop]
        refine Sure.bind ((reading_seek hs.fit (Nat.le_trans hle hin)).sure hs.right)
          fun _ w₁ hm₁ hfit₁ hr₁ h₁ => ?_
        have hs₁ := hs.moves (hm₁.mono (fun _ h => h) fun _ hi => ⟨l, hl, hi⟩) hfit₁ hr₁
        have hu₁ : w₁.state.get l.bucket = .unknown := by rw [h₁.1.state, hu]
        have run := sure_runLoop (runs_of_apt hn ht hl hb hs₁ hu₁ ha rfl) hbound
          (h₁.2 ▸ hd.2.2) ha.answer
        refine (safe_restoring (P := Walker.Right told k.truth)
          (Safe.mono run (fun _ _ _ _ h => h.1) fun _ _ h => h)
          (fun _ _ ho hr => Right.of_onlyReads ho hr) (fun _ _ ho hr => Right.of_onlyReads ho hr)
          hlen).mono (fun _ _ _ _ h => ⟨h.1, trivial⟩) fun _ _ h => h.1
    · next hopen =>
      refine fails ?_
      cases d with
      | array o _ _ => exact absurd (harr.mpr hd.1) hopen
      | scalar _ => rfl
      | object _ _ _ => rfl

/-! ## 2. What waits for a value -/

/-- **What has waited for the value of a node**, in a scene where it is all right. -/
theorem sure_waiting (hn : n.Fits c stall) (ht : n.Tidy)
    (hb : ∀ l ∈ n.allLoops, Answers c s (some l.bucket) told l.body)
    (hbound : s.bound = c.data.length + 1) (hs : Stands c stall told k n.BodySlot w)
    (htests : ∀ t ∈ n.afterTests,
      Due told k t.check.slots t.bucket
        (t.check.holds s.decimals (k.captured c.data) .missing) w)
    (hloops : ∀ l ∈ n.afterLoops, w.state.get l.bucket = .unknown → l.AptLate c told k) :
    Sure c s told k.truth (· ∈ n.loopBuckets) n.BodySlot w
      (after n.afterTests (n.afterLoops.map fun l => (l.target, l.halting))) fun _ _ => True := by
  refine (sure_tests hn (fun t h => List.mem_append_right _ h) hs htests).bind
    fun _ w₁ hm₁ hfit₁ hr₁ _ => ?_
  rw [List.forM_eq_forM, List.forM_map]
  refine sure_forM (f := fun l : Loop => runCaptured l.target l.halting) (K := fun _ _ => True)
    hfit₁ hr₁ trivial fun l _ w₂ hl hm₂ hfit₂ hr₂ _ => ?_
  have hl' : l ∈ n.allLoops := List.mem_append_right _ hl
  have hm := hm₁.trans hm₂
  have hs₂ := hs.moves hm hfit₂ hr₂
  obtain ⟨i, htarget, hcount⟩ := hn.target hl
  unfold runCaptured
  rw [Loop.halting_bucket]
  refine Safe.bind (Q := fun r w' => w' = w₂ ∧ (r = true ↔ w₂.state.get l.bucket = .unknown))
    (safe_isUnknown hfit₂ (hn.loop hl').1.bucket.lt) fun r w₃ _ _ h₃ => ?_
  obtain ⟨rfl, hr⟩ := h₃
  split
  · next hu =>
    simp only [htarget]
    have hu₃ := hr.mp hu
    have hu₀ : w.state.get l.bucket = .unknown := Classical.byContradiction fun hk =>
      hm.known_of_node hn hs.fit.tree (Node.mem_buckets.mpr (.inr (.inl ⟨l, hl', rfl⟩))) hk hu₃
    obtain ⟨hreads, htells, inner, hapt⟩ := hloops l hl hu₀ i htarget
    have hheld := hs₂.held i hreads
    -- looking at the slot finds what it should hold
    have fetch : Sure c s told k.truth (· ∈ n.loopBuckets) n.BodySlot w₃ (fetch l.bucket i)
        fun found w₄ => Looked l.bucket [i] w₃ w₄ ∧ found = (k.held i).map Doc.span := by
      refine (safe_fetch hfit₂ hcount).mono (fun found w₄ _ _ h₄ => ?_) fun _ _ h => h
      obtain ⟨hlook, hfound, -⟩ := h₄
      refine ⟨⟨by rw [hlook.state]; exact hr₂.sound, hlook.faithful hr₂.faithful hs₂.lasts
        fun j hj => ?_⟩, hlook, ?_⟩
      · rw [List.mem_singleton.mp hj]
        exact ⟨htells, hheld⟩
      · rw [← hheld, Walker.held, hfound]
        rfl
    refine fetch.bind fun found w₄ hm₄ hfit₄ hr₄ h₄ => ?_
    obtain ⟨hlook, rfl⟩ := h₄
    have hs₄ := hs₂.moves hm₄ hfit₄ hr₄
    exact (sure_runOver hn ht hl' (hb l hl') hbound hs₄ (by rw [hlook.state]; exact hu₃) hapt
      (hs.lies i)).of_loop hl'
  · exact sure_pure hfit₂ hr₂ trivial

/-- What has waited for the value of a node. -/
theorem sure_after (hn : n.Fits c stall) (ht : n.Tidy)
    (hb : ∀ l ∈ n.allLoops, Answers c s (some l.bucket) told l.body)
    (hbound : s.bound = c.data.length + 1) (hdec : s.decimals = c.kit.decimals)
    (hs : Stands c stall told k (· ∈ n.slots) w) (hd : ∀ d, v? = some d → d.Lies c.data)
    (hp : Poised c told k v? n (fun path => v?.bind (Doc.reach path)) w) :
    Sure c s told k.truth (· ∈ n.loopBuckets) n.BodySlot w
      (after n.afterTests (n.afterLoops.map fun l => (l.target, l.halting))) fun _ _ => True := by
  rcases hp with hknown | hfresh
  · refine sure_waiting hn ht hb hbound (hs.mono fun _ h => h.slot) (fun t h hu => ?_)
      fun l hl hu => ?_
    · exact absurd hu (hknown _ (Node.mem_buckets.mpr
        (.inl ⟨t, List.mem_append_right _ h, rfl⟩)))
    · exact absurd hu (hknown _ (Node.mem_buckets.mpr
        (.inr (.inl ⟨l, List.mem_append_right _ hl, rfl⟩))))
  · have late := hs.late ht hd hfresh.places
    exact sure_waiting (k := k.late n v?) hn ht hb hbound late
      (fun t h => hdec ▸ hfresh.afterTest late h) fun l hl _ => hfresh.afterLoop hl

/-! ## 3. Objects -/

/-- Where the members `pre` of an object have been passed: a child whose name has come up has been
    handled, and the slots of the children hold what has been found. -/
structure Passed (c : Course) (told : Told) (k : Scene) (n : Node)
    (members pre : List (Token × Doc)) (w₀ w : Walker) : Prop where
  child : ∀ child ∈ n.children, (∀ b ∈ child.2.buckets, w.Known b) ∨
    Doc.firstIn child.1 pre = none ∧
      Fresh c told k (Doc.firstIn child.1 members) child.2 (fun _ => none) w
  fills : ∀ child ∈ n.children,
    Fills child.2 (fun path => Doc.findIn child.1 (Doc.reach path) pre) w₀ w

variable {members pre rest : List (Token × Doc)} {key : Token} {x : Doc} {w₀ : Walker}

/-- A member that is not for a child changes nothing for it. -/
theorem Passed.other {u : Walker} (h : Passed c told k n members pre w₀ w)
    {child : String × Node} (hc : child ∈ n.children) (hne : nameOf? key ≠ some child.1)
    (hk : ∀ b ∈ child.2.buckets, w.Known b → u.Known b) (hp : KeepsPlaces child.2 w u) :
    ((∀ b ∈ child.2.buckets, u.Known b) ∨ Doc.firstIn child.1 (pre ++ [(key, x)]) = none ∧
      Fresh c told k (Doc.firstIn child.1 members) child.2 (fun _ => none) u) ∧
    Fills child.2 (fun path => Doc.findIn child.1 (Doc.reach path) (pre ++ [(key, x)])) w₀ u := by
  refine ⟨(h.child child hc).imp (fun h b hb => hk b hb (h b hb)) fun h => ⟨?_, h.2.means,
    h.2.tells, fun i path hi => (hp i path hi).trans (h.2.places i path hi)⟩, fun i path hi => ?_⟩
  · rw [Doc.firstIn_append, h.1, Doc.firstIn, if_neg hne]
    rfl
  · rw [hp i path hi, h.fills child hc i path hi]
    simp only [Doc.findIn_append, Doc.findIn, if_neg hne, Option.or_none]

/-- **The value of a member** goes to the child of its name. -/
theorem sure_memberValue (hf : n.Fits c stall) (ht : n.Tidy)
    (hc : ∀ child ∈ n.children, Answers c s stall told child.2)
    (hs : Stands c stall told k (· ∈ n.slots) w) (hp : Passed c told k n members pre w₀ w)
    (hm : members = pre ++ (key, x) :: rest) (hx : x.Lies c.data)
    (hpos : w.cursor.position = x.opening.stop) :
    Sure c s told k.truth (· ∈ n.loopBuckets) (ChildSlot n) w
      (memberValue (n.children.map fun child => (child.1, child.2.halting)) key x.opening)
      fun _ w' => w'.cursor.position = x.stop ∧
        Passed c told k n members (pre ++ [(key, x)]) w₀ w' := by
  unfold memberValue
  rw [handlerOf?_eq]
  cases hh : (nameOf? key).bind fun name =>
      (n.children.find? (·.1 = name)).map fun child => child.2.halting with
  | none =>
    have hne : ∀ child ∈ n.children, nameOf? key ≠ some child.1 := fun child hc he => by
      rw [he, Option.bind_some, Option.map_eq_none_iff, List.find?_eq_none] at hh
      exact hh child hc (decide_eq_true rfl)
    refine ((reading_skipValue hs.fit hx hpos).sure hs.right).mono fun _ w₁ _ _ _ h₁ => ⟨h₁.2, ?_⟩
    have other (child : String × Node) (hc : child ∈ n.children) :=
      hp.other (x := x) hc (hne child hc)
        (fun b _ hk => by rw [Walker.Known, h₁.1.state]; exact hk) (.of_slots h₁.1.slots)
    exact ⟨fun child hc => (other child hc).1, fun child hc => (other child hc).2⟩
  | some handler =>
    obtain ⟨name, hname, hfind⟩ := Option.bind_eq_some_iff.mp hh
    obtain ⟨child, hfound, rfl⟩ := Option.map_eq_some_iff.mp hfind
    have hmem := List.mem_of_find?_eq_some hfound
    have hn := List.find?_some hfound
    simp only [decide_eq_true_eq] at hn
    subst hn
    have poised : Poised c told k (some x) child.2 (fun _ => none) w :=
      (hp.child child hmem).imp_right fun h => by
        obtain ⟨hnone, hfresh⟩ := h
        rwa [hm, Doc.firstIn_append, hnone, Option.none_or, Doc.firstIn, if_pos hname] at hfresh
    refine Sure.of_child hmem (((hc child hmem).handle (hf.child hmem) (hs.child hmem) poised hx
      hpos).mono fun _ w₁ hm₁ _ _ h₁ => ⟨h₁.1, ?_⟩)
    obtain ⟨-, hknown, hfill⟩ := h₁
    have other (c₂ : String × Node) (h₂ : c₂ ∈ n.children) (hne : child ≠ c₂) :=
      hp.other (x := x) (u := w₁) h₂
        (fun he => hne (ht.child_of_name hmem h₂ (Option.some.inj (hname.symm.trans he))))
        (fun b hb hk => (hm₁.mono (fun _ h => Node.mem_loopBuckets.mpr (.inr ⟨child, hmem, h⟩))
          fun _ h => h).known_of_node hf hs.fit.tree
            (Node.mem_buckets.mpr (.inr (.inr ⟨c₂, h₂, hb⟩))) hk)
        (.of_child ht hmem h₂ hne hm₁)
    refine ⟨fun c₂ h₂ => ?_, fun c₂ h₂ => ?_⟩
    · by_cases he : child = c₂
      · subst he
        exact .inl hknown
      · exact (other c₂ h₂ he).1
    · by_cases he : child = c₂
      · subst he
        intro i path hi
        rw [hfill i path hi, hp.fills child hmem i path hi]
        simp only [Doc.findIn_append, Doc.findIn, if_pos hname, Option.or_none, Option.map_or,
          Option.or_assoc]
      · exact (other c₂ h₂ he).2

/-- Where an object stands when the key of a member has been read. -/
structure AtMember (c : Course) (told : Told) (k : Scene) (n : Node)
    (members : List (Token × Doc)) (stop : Nat) (w₀ : Walker) (fuel : Nat) (a : Token)
    (w : Walker) : Prop where
  moves : Moves (· ∈ n.loopBuckets) (ChildSlot n) w₀ w
  fit : w.Fit c
  right : w.Right told k.truth
  member : ∃ pre x rest, members = pre ++ (a, x) :: rest ∧ Passed c told k n members pre w₀ w ∧
    w.cursor.position = a.stop ∧ Introduces c.data a x.opening ∧ x.Lies c.data ∧
    Doc.MoreMembers c.data stop x.stop rest ∧ c.data.length < fuel + a.offset

variable {stop fuel : Nat}

/-- **One member.** -/
theorem sure_member (hn : n.Fits c stall) (ht : n.Tidy)
    (hc : ∀ child ∈ n.children, Answers c s stall told child.2)
    (hs : Stands c stall told k (· ∈ n.slots) w₀)
    (ha : AtMember c told k n members stop w₀ (fuel + 1) key w) :
    Sure c s told k.truth (· ∈ n.loopBuckets) (ChildSlot n) w
      (member (n.children.map fun child => (child.1, child.2.halting)) key) fun r w' =>
        match r with
        | .inl next => AtMember c told k n members stop w₀ fuel next w'
        | .inr _ => w'.cursor.position = stop ∧ Passed c told k n members members w₀ w' := by
  obtain ⟨hm, hfit, hr, pre, x, rest, hmem, hpassed, hpos, hintro, hx, hmore, hfuel⟩ := ha
  have keep {w₁ w₂ : Walker} (ho : OnlyReads w₁ w₂) {pre : List (Token × Doc)}
      (hp : Passed c told k n members pre w₀ w₁) : Passed c told k n members pre w₀ w₂ := by
    refine ⟨fun child hc => (hp.child child hc).imp (fun h b hb => ?_) fun h => ⟨h.1, h.2.means,
      h.2.tells, fun i path hi => ?_⟩, fun child hc i path hi => ?_⟩
    · rw [Walker.Known, ho.state]
      exact h b hb
    · rw [held_of_slots ho.slots, h.2.places i path hi]
    · rw [held_of_slots ho.slots, hp.fills child hc i path hi]
  refine ((reading_memberStart hfit hpos hintro).sure hr).bind fun first w₁ hm₁ hfit₁ hr₁ h₁ => ?_
  obtain ⟨ho₁, rfl, hpos₁⟩ := h₁
  have hs₁ := hs.moves ((hm.trans hm₁).mono (fun _ h => h) fun _ h => h.slot) hfit₁ hr₁
  refine (sure_memberValue hn ht hc hs₁ (keep ho₁ hpassed) hmem hx hpos₁).bind
    fun _ w₂ hm₂ hfit₂ hr₂ h₂ => ?_
  obtain ⟨hpos₂, hpassed₂⟩ := h₂
  have hm' := hm.trans (hm₁.trans hm₂)
  cases rest with
  | nil =>
    refine ((reading_lastPart hfit₂ TokenKind.noConfusion (by rw [hpos₂]; exact hmore)).sure
      hr₂).bind fun r w₃ _ hfit₃ hr₃ h₃ => ?_
    obtain ⟨ho₃, rfl, hpos₃⟩ := h₃
    refine sure_pure hfit₃ hr₃ ⟨hpos₃, ?_⟩
    rw [← hmem] at hpassed₂
    exact keep ho₃ hpassed₂
  | cons next rest =>
    obtain ⟨key', y⟩ := next
    obtain ⟨hnext, hintro', hy, hmore⟩ := hmore
    refine ((reading_nextPart hfit₂ (by rw [hpos₂]; exact hnext)).sure hr₂).bind
      fun r w₃ hm₃ hfit₃ hr₃ h₃ => ?_
    obtain ⟨ho₃, rfl, hpos₃⟩ := h₃
    refine sure_pure hfit₃ hr₃ ⟨hm'.trans hm₃, hfit₃, hr₃, pre ++ [(key, x)], y, rest, ?_,
      keep ho₃ hpassed₂, hpos₃, hintro', hy, hmore, ?_⟩
    · rw [hmem, List.append_assoc]
      rfl
    · have := hnext.le
      have := hintro.le
      have := hx.bounds
      omega

/-- **The members of an object.** -/
theorem sure_members {o : Token} (hn : n.Fits c stall) (ht : n.Tidy)
    (hc : ∀ child ∈ n.children, Answers c s stall told child.2)
    (hbound : s.bound = c.data.length + 1) (hs : Stands c stall told k (· ∈ n.slots) w)
    (hp : Poised c told k (some (.object o members stop)) n (fun _ => none) w)
    (hd : (Doc.object o members stop).Lies c.data) (hpos : w.cursor.position = o.stop) :
    Sure c s told k.truth (· ∈ n.loopBuckets) (ChildSlot n) w
      (Walk.members (n.children.map fun child => (child.1, child.2.halting))) fun _ w' =>
        w'.cursor.position = stop ∧ Fills n (Doc.object o members stop).inner w w' := by
  have hsecure : ∀ child ∈ n.children, Secure c s stall child.2 := fun child h => (hc child h).secure
  -- before the first member, every child is as the node is
  have first {w₁ : Walker} (ho : OnlyReads w w₁) : Passed c told k n members [] w w₁ := by
    refine ⟨fun child h => ?_, fun child _ i path _ => ?_⟩
    · refine ((hp.child h).keep (g := fun _ => none) (u := w₁) (fun b _ hk => ?_)
        fun i path _ he => (held_of_slots ho.slots i).trans he).imp_right fun h => ⟨rfl, h⟩
      rw [Walker.Known, ho.state]
      exact hk
    · rw [held_of_slots ho.slots]
      exact Option.or_none.symm
  -- after the last one, a child of which not all is known has not come up
  have last {w₁ : Walker} (hm₁ : Moves (· ∈ n.loopBuckets) (ChildSlot n) w w₁) (hfit₁ : w₁.Fit c)
      (hr₁ : w₁.Right told k.truth) (hpos₁ : w₁.cursor.position = stop)
      (hpassed : Passed c told k n members members w w₁) :
      Sure c s told k.truth (· ∈ n.loopBuckets) (ChildSlot n) w₁
        (missingAll (n.children.map fun child => (child.1, child.2.halting))) fun _ w' =>
          w'.cursor.position = stop ∧ Fills n (Doc.object o members stop).inner w w' := by
    have hs₁ := hs.moves (hm₁.mono (fun _ h => h) fun _ h => h.slot) hfit₁ hr₁
    have fresh (child : String × Node) (h : child ∈ n.children) :=
      (hpassed.child child h).imp_right fun h => h.1 ▸ h.2
    refine ((sure_missingAll hn ht hc hs₁ fresh).and_safe
      (safe_missingAll hn hsecure hfit₁ hs₁.stall)).mono fun _ w₂ hm₂ _ _ h₂ => ?_
    obtain ⟨hkeep, -, hsame⟩ := h₂
    refine ⟨hsame.trans hpos₁, Fills.of_children ht rfl (hm₁.trans hm₂) fun child h i path hi => ?_⟩
    have hplace : (i, child.1 :: path) ∈ n.places :=
      Node.mem_places.mpr (.inr ⟨child, h, path, rfl, hi⟩)
    exact (hkeep i _ hplace).trans (hpassed.fills child h i path hi)
  obtain ⟨-, -, hall⟩ := hd
  rw [← hpos] at hall
  cases members with
  | nil =>
    obtain ⟨t, hnext, hk, rfl⟩ := hall
    refine ((reading_step hs.fit hnext).sure hs.right).bind fun key w₁ hm₁ hfit₁ hr₁ h₁ => ?_
    obtain ⟨ho₁, rfl, hpos₁⟩ := h₁
    rw [if_pos hk]
    exact last hm₁ hfit₁ hr₁ hpos₁ (first ho₁)
  | cons m rest =>
    obtain ⟨key, x⟩ := m
    obtain ⟨hnext, hintro, hx, hmore⟩ := hall
    refine ((reading_step hs.fit hnext).sure hs.right).bind fun key w₁ hm₁ hfit₁ hr₁ h₁ => ?_
    obtain ⟨ho₁, rfl, hpos₁⟩ := h₁
    have hk : key.kind ≠ .objectEnd := fun hk => by
      have := hintro.1
      rw [hk] at this
      cases this
    rw [if_neg hk]
    refine Sure.bind (Q := fun _ w' => w'.cursor.position = stop ∧
      Passed c told k n ((key, x) :: rest) ((key, x) :: rest) w w') ?_
      fun _ w₂ hm₂ hfit₂ hr₂ h₂ => last (hm₁.trans hm₂) hfit₂ hr₂ h₂.1 h₂.2
    refine meets_repeatedly (meets_iterate
      (I := fun fuel a w' => AtMember c told k n ((key, x) :: rest) stop w fuel a w' ∧
        Moves (· ∈ n.loopBuckets) (ChildSlot n) w₁ w')
      (fun fuel a w' ha => ?_) (fun a w' ha => ?_) ?_)
    · refine ((sure_member hn ht hc hs ha.1).after ha.2).mono (fun r w'' h => ?_) fun _ _ h => h
      obtain ⟨hm, hfit, hr, h⟩ := h
      cases r with
      | inl _ => exact ⟨h, hm⟩
      | inr _ => exact ⟨hm, hfit, hr, h⟩
    · obtain ⟨⟨-, -, -, _, y, _, -, -, -, hintro, hy, -, hfuel⟩, -⟩ := ha
      have := hintro.le
      have := hy.bounds
      omega
    · exact ⟨⟨hm₁, hfit₁, hr₁, [], x, rest, rfl, first ho₁, hpos₁, hintro, hx, hmore, by omega⟩,
        .refl _⟩

/-! ## 4. Nodes -/

/-- Reading a container and taking its bytes. -/
theorem sure_container {make : Bytes → Value} {o : Token} {inside : Walk Unit}
    {P : Walker → Prop} (ho : o.offset < stop)
    (h : Sure c s told k.truth loops slots w inside
      fun _ w' => w'.cursor.position = stop ∧ P w') :
    Sure c s told k.truth loops slots w (container make o inside) fun v w' =>
      v = make ((Span.between o.offset stop).text c.data) ∧ w'.cursor.position = stop ∧ P w' := by
  refine h.bind fun _ w₁ _ hfit₁ hr₁ h₁ => ?_
  obtain ⟨hpos, hP⟩ := h₁
  refine Safe.bind (Q := fun span w' => w' = w₁ ∧ span = .between o.offset stop)
    ((safe_spanFrom hfit₁ (by rw [hpos]; exact ho)).mono
      (fun _ _ _ _ h => ⟨h.1, by rw [h.2.1, hpos]⟩) fun _ _ h => h) fun span w₂ _ _ h₂ => ?_
  obtain ⟨rfl, rfl⟩ := h₂
  refine sure_get_bind (sure_pure hfit₁ hr₁ ⟨?_, hpos, hP⟩)
  rw [hfit₁.data]

/-- What a node needs to answer: its parts do, and the walk has fuel enough. -/
structure Able (c : Course) (s : Setting) (stall : Option Nat) (told : Told) (n : Node) : Prop where
  fits : n.Fits c stall
  tidy : n.Tidy
  bound : s.bound = c.data.length + 1
  decimals : s.decimals = c.kit.decimals
  children : ∀ child ∈ n.children, Answers c s stall told child.2
  bodies : ∀ l ∈ n.allLoops, Answers c s (some l.bucket) told l.body

/-- Nothing is found inside a value that is no object. -/
theorem Doc.inner_eq_none (h : ∀ o members stop, d ≠ .object o members stop) (path : Path) :
    d.inner path = none := by
  cases path with
  | nil => rfl
  | cons _ _ =>
    cases d with
    | object o members stop => exact absurd rfl (h o members stop)
    | scalar _ => rfl
    | array _ _ _ => rfl

theorem fills_of_none {found : Path → Option Doc} (hf : ∀ path, found path = none)
    (h : KeepsPlaces n w w') : Fills n found w w' := fun i path hi => by
  rw [hf, h i path hi]
  exact Option.or_none.symm

/-- **Reading a value.** -/
theorem Able.read (h : Able c s stall told n) (hs : Stands c stall told k (· ∈ n.slots) w)
    (hp : Poised c told k (some d) n (fun _ => none) w) (hd : d.Lies c.data)
    (hpos : w.cursor.position = d.opening.stop) :
    Sure c s told k.truth (· ∈ n.loopBuckets) (· ∈ n.slots) w (n.halting.read d.opening)
      fun v w' => v = d.value c.data ∧ w'.cursor.position = d.stop ∧ Fills n d.inner w w' := by
  rw [Node.halting_eq]
  show Sure c s told k.truth _ _ w (readValue _ _ d.opening) _
  obtain ⟨hlt, hle, -⟩ := hd.bounds
  cases d with
  | scalar t =>
    have hk : t.kind.isScalar = true := hd.1
    have hread : readValue (n.loops.map Loop.halting)
        (n.children.map fun child => (child.1, child.2.halting)) t = pure (.ofToken t) := by
      unfold readValue
      split
      · next he => rw [he] at hk; cases hk
      · next he => rw [he] at hk; cases hk
      · rw [if_pos hk]
    rw [Doc.opening, hread]
    exact sure_pure hs.fit hs.right
      ⟨rfl, hpos, fills_of_none (Doc.inner_eq_none nofun) fun _ _ _ => rfl⟩
  | array o items stop =>
    have inside : Sure c s told k.truth (· ∈ n.loopBuckets) n.BodySlot w
        (if (n.loops.map Loop.halting).isEmpty then skipContainer
          else runLoops (n.loops.map Loop.halting))
        fun _ w' => w'.cursor.position = stop ∧ KeepsPlaces n w w' := by
      split
      · refine ((reading_skip hs.fit (hpos ▸ hd.2.2.leaves)).sure hs.right).mono
          fun _ _ _ _ _ h => ⟨h.2, .of_slots h.1.slots⟩
      · next he =>
        rw [List.isEmpty_iff, List.map_eq_nil_iff] at he
        exact (sure_runLoops h.fits h.tidy h.bodies h.bound hs hp hd hpos).mono
          fun _ _ hm _ _ h' => ⟨h' he, .of_moves hm h.tidy⟩
    rw [Doc.opening, readValue, hd.1]
    refine (sure_container (Nat.lt_of_lt_of_le hlt hle) (inside.widen (fun _ h => h)
      fun _ h => h.slot)).mono fun _ _ _ _ _ h => ⟨h.1, h.2.1, ?_⟩
    exact fills_of_none (Doc.inner_eq_none nofun) h.2.2
  | object o members stop =>
    have inside : Sure c s told k.truth (· ∈ n.loopBuckets) (ChildSlot n) w
        (if (n.children.map fun child => (child.1, child.2.halting)).isEmpty then skipContainer
          else Walk.members (n.children.map fun child => (child.1, child.2.halting)))
        fun _ w' => w'.cursor.position = stop ∧
          Fills n (Doc.object o members stop).inner w w' := by
      split
      · next he =>
        rw [List.isEmpty_iff, List.map_eq_nil_iff] at he
        refine ((reading_skip hs.fit (hpos ▸ hd.2.2.leaves)).sure hs.right).mono
          fun _ w₁ _ _ _ h => ⟨h.2, fun i path hi => ?_⟩
        rcases Node.mem_places.mp hi with ⟨-, rfl⟩ | ⟨child, hc, -⟩
        · rw [held_of_slots h.1.slots]
          exact Option.or_none.symm
        · rw [he] at hc
          cases hc
      · exact sure_members h.fits h.tidy h.children h.bound hs hp hd hpos
    rw [Doc.opening, readValue, hd.1]
    exact sure_container (Nat.lt_of_lt_of_le hlt hle) (inside.widen (fun _ h => h)
      fun _ h => h.slot)

/-- **What is done with a value, or without one.** -/
theorem Able.complete (h : Able c s stall told n) {v : Value} {loopPart childPart : Walk Unit}
    (hv : Doc.valueOf c.data v? = v) (hs : Stands c stall told k (· ∈ n.slots) w)
    (hp : Poised c told k v? n (fun path => v?.bind (Doc.reach path)) w)
    (hd : ∀ d, v? = some d → d.Lies c.data)
    (hloops : ∀ w', Stands c stall told k (· ∈ n.slots) w' →
      Poised c told k v? n (fun path => v?.bind (Doc.reach path)) w' →
      Sure c s told k.truth (· ∈ n.loopBuckets) (· ∈ n.slots) w' loopPart
        fun _ w'' => w''.slots = w'.slots)
    (hchildren : ∀ w', Stands c stall told k (· ∈ n.slots) w' →
      Poised c told k v? n (fun path => v?.bind (Doc.reach path)) w' →
      Sure c s told k.truth (· ∈ n.loopBuckets) (· ∈ n.slots) w' childPart
        fun _ w'' => KeepsPlaces n w' w'') :
    Sure c s told k.truth (· ∈ n.loopBuckets) (· ∈ n.slots) w
      (do
        n.tests.forM (test v)
        loopPart
        childPart
        after n.afterTests (n.afterLoops.map fun l => (l.target, l.halting)))
      fun _ w' => KeepsPlaces n w w' := by
  -- as long as the slots of the node stay, the node stays poised
  have keep {w₁ w₂ : Walker} (hs₁ : Stands c stall told k (· ∈ n.slots) w₁)
      (hm : Moves (· ∈ n.loopBuckets) (· ∈ n.slots) w₁ w₂) (hk : KeepsPlaces n w₁ w₂)
      (hp : Poised c told k v? n (fun path => v?.bind (Doc.reach path)) w₁) :
      Poised c told k v? n (fun path => v?.bind (Doc.reach path)) w₂ :=
    hp.keep (fun b hb hk => hm.known_of_node h.fits hs₁.fit.tree hb hk)
      fun i path hi he => (hk i path hi).trans he
  subst hv
  refine (sure_tests h.fits (fun t ht => List.mem_append_left _ ht) hs
    fun t ht => h.decimals ▸ hp.test hs ht).bind fun _ w₁ hm₁ hfit₁ hr₁ h₁ => ?_
  have hs₁ := hs.moves hm₁ hfit₁ hr₁
  have hp₁ := keep hs hm₁ (.of_slots h₁) hp
  refine (hloops w₁ hs₁ hp₁).bind fun _ w₂ hm₂ hfit₂ hr₂ h₂ => ?_
  have hs₂ := hs₁.moves hm₂ hfit₂ hr₂
  have hp₂ := keep hs₁ hm₂ (.of_slots h₂) hp₁
  refine (hchildren w₂ hs₂ hp₂).bind fun _ w₃ hm₃ hfit₃ hr₃ h₃ => ?_
  have hs₃ := hs₂.moves hm₃ hfit₃ hr₃
  have hp₃ := keep hs₂ hm₃ h₃ hp₂
  refine ((sure_after h.fits h.tidy h.bodies h.bound h.decimals hs₃ hd hp₃).mono
    fun _ w₄ hm₄ _ _ _ => ?_).widen (fun _ h => h) fun _ h => h.slot
  exact (KeepsPlaces.of_slots (h₂.trans h₁)).trans (h₃.trans (.of_moves hm₄ h.tidy))

/-- Capturing a value fills the slot of its node. -/
theorem Captured.fills (h : Captured n.slot d.span w w') (hs : Stands c stall told k slots w)
    (hn : n.Fits c stall) (ht : n.Tidy) : Fills n d.outer w w' := fun i path hi => by
  rcases Node.mem_places.mp hi with ⟨hslot, rfl⟩ | ⟨child, hc, rest, rfl, hrest⟩
  · obtain ⟨found, hfound⟩ := slot_some hs.fit (hn.slot i hslot)
    cases found with
    | none =>
      rw [Walker.held, Walker.held, h.filled i hslot hfound, hfound]
      rfl
    | some span =>
      rw [Walker.held, Walker.held, h.kept i (.inr (by rw [hfound]; exact fun h => by cases h)), hfound]
      rfl
  · have hne : n.slot ≠ some i := fun he =>
      (ht.own_apart he).1 child hc (Node.mem_slots_of_place hrest)
    rw [Walker.held, h.kept i (.inl hne)]
    exact Option.or_none.symm

/-- Capturing the value of a node. -/
theorem sure_capture (hs : Stands c stall told k (· ∈ n.slots) w) (hn : n.Fits c stall)
    (ht : n.Tidy) (hd : d.Lies c.data) (hpos : w.cursor.position = d.stop) :
    Sure c s told k.truth (· ∈ n.loopBuckets) (· ∈ n.slots) w
      (capture d.opening (d.value c.data) n.slot) fun _ w' => Fills n d.outer w w' := by
  obtain ⟨hlt, hle, -⟩ := hd.bounds
  refine (safe_capture hs.fit hn.slot (fun i hi => Node.mem_slots.mpr (.inl hi))
    (by rw [hpos]; exact Nat.lt_of_lt_of_le hlt hle)).mono (fun _ w₁ _ _ h₁ => ?_) fun _ _ h => h
  rw [hpos] at h₁
  refine ⟨⟨by rw [h₁.state]; exact hs.right.sound, ?_⟩, Captured.fills h₁ hs hn ht⟩
  obtain ⟨events, htrail, he⟩ := h₁.trail
  rw [htrail]
  refine faithful_blind hs.right.faithful fun e hm => ?_
  obtain ⟨_, _, rfl⟩ := he e hm
  trivial

/-- What is done once a value has been captured. -/
theorem Able.captured (h : Able c s stall told n) (hs : Stands c stall told k (· ∈ n.slots) w)
    (hp : Poised c told k (some d) n (fun path => (some d).bind (Doc.reach path)) w)
    (hd : d.Lies c.data) :
    Sure c s told k.truth (· ∈ n.loopBuckets) (· ∈ n.slots) w
      (do
        n.tests.forM (test (d.value c.data))
        unlessOf .arrayStart d.opening (failLoops (n.loops.map Loop.halting))
        unlessOf .objectStart d.opening
          (missingAll (n.children.map fun child => (child.1, child.2.halting)))
        after n.afterTests (n.afterLoops.map fun l => (l.target, l.halting)))
      fun _ w' => KeepsPlaces n w w' := by
  refine h.complete rfl hs hp (fun d' hd' => by cases hd'; exact hd) (fun w₁ hs₁ hp₁ => ?_)
    fun w₁ hs₁ hp₁ => ?_
  · unfold unlessOf
    split
    · exact sure_pure hs₁.fit hs₁.right rfl
    · next hk =>
      refine sure_failLoops h.fits hs₁ fun l hl hu => hp₁.noArray ?_ hl hu
      cases d with
      | array o _ _ => exact absurd hd.1 hk
      | scalar _ => rfl
      | object _ _ _ => rfl
  · unfold unlessOf
    split
    · exact sure_pure hs₁.fit hs₁.right fun _ _ _ => rfl
    · next hk =>
      refine (sure_missingAll h.fits h.tidy h.children hs₁ fun child hc => ?_).widen
        (fun _ h => h) fun _ h => h.slot
      have poised := hp₁.child hc
      cases d with
      | object o _ _ => exact absurd hd.1 hk
      | scalar _ => exact poised
      | array _ _ _ => exact poised

/-- **What is done once a value has been read.** -/
theorem Able.finish (h : Able c s stall told n) (hs : Stands c stall told k (· ∈ n.slots) w)
    (hp : Poised c told k (some d) n d.inner w) (hd : d.Lies c.data)
    (hpos : w.cursor.position = d.stop) :
    Sure c s told k.truth (· ∈ n.loopBuckets) (· ∈ n.slots) w
      (n.halting.finish d.opening (d.value c.data)) fun _ w' => Fills n d.outer w w' := by
  rw [Node.halting_eq]
  refine (sure_capture hs h.fits h.tidy hd hpos).bind fun _ w₁ hm₁ hfit₁ hr₁ hfill => ?_
  have hs₁ := hs.moves hm₁ hfit₁ hr₁
  have hp₁ : Poised c told k (some d) n (fun path => (some d).bind (Doc.reach path)) w₁ :=
    hp.keep (fun b hb hk => hm₁.known_of_node h.fits hs.fit.tree hb hk) fun i path hi he => by
      rw [hfill i path hi, he, ← Option.map_or, Doc.inner_or_outer]
      rfl
  exact (h.captured hs₁ hp₁ hd).mono fun _ _ _ _ _ hkeep i path hi =>
    (hkeep i path hi).trans (hfill i path hi)

/-- What is done when there is no value. -/
theorem Able.missing (h : Able c s stall told n) (hs : Stands c stall told k (· ∈ n.slots) w)
    (hp : Poised c told k none n (fun _ => none) w) :
    Sure c s told k.truth (· ∈ n.loopBuckets) (· ∈ n.slots) w n.halting.missing
      fun _ w' => KeepsPlaces n w w' := by
  rw [Node.halting_eq]
  refine h.complete (v := .missing) rfl hs hp nofun (fun w₁ hs₁ hp₁ => ?_) fun w₁ hs₁ hp₁ => ?_
  · exact sure_failLoops h.fits hs₁ fun l hl hu => hp₁.noArray rfl hl hu
  · exact (sure_missingAll h.fits h.tidy h.children hs₁ fun child hc => hp₁.child hc).widen
      (fun _ h => h) fun _ h => h.slot

/-- **Every node that fits its tree and is tidy answers what is true.** -/
theorem answers (hbound : s.bound = c.data.length + 1) (hdec : s.decimals = c.kit.decimals)
    (n : Node) :
    ∀ stall, n.Fits c stall → n.Tidy → Answers c s stall told n := by
  induction n using Node.induct with
  | h n children loops afterLoops =>
    intro stall hn ht
    have able : Able c s stall told n := {
      fits := hn
      tidy := ht
      bound := hbound
      decimals := hdec
      children := fun child hc => children child hc stall (hn.child hc) (ht.child hc)
      bodies := fun l hl => by
        rcases List.mem_append.mp hl with h | h
        · exact loops l h _ (hn.loop hl).2.1 (ht.body hl)
        · exact afterLoops l h _ (hn.loop hl).2.1 (ht.body hl) }
    exact {
      secure := secure hbound n stall hn
      read := fun _ _ _ hs hp hd hpos => able.read hs hp hd hpos
      finish := fun _ _ _ hs hp hd hpos _ _ => able.finish hs hp hd hpos
      missing := fun _ _ hs hp => able.missing hs hp }

end Walk

end Sift
