import Sift.Proofs.Walk.Stance

/-!
# What a handler answers

`Answers c s stall told n` says of the handler of a node what it does with the values of a document
that is well formed: it reads them whole, fills the slots of the node with what their paths lead to,
and marks nothing but what is true. What is known afterwards is told by `Secure`, which does not
ask for a document to be well formed.
-/

namespace Sift

open Resolution

variable {loops slots : Nat → Prop} {c : Course} {stall : Option Nat} {told : Told} {k : Scene}
  {n : Node} {v? : Option Doc} {w w' : Walker}

/-- Where a path leads inside a value. The empty path stays outside. -/
def Doc.inner (d : Doc) : Path → Option Doc
  | [] => none
  | name :: path => d.reach (name :: path)

/-- Where the empty path leads. -/
def Doc.outer (d : Doc) : Path → Option Doc
  | [] => some d
  | _ :: _ => none

theorem Doc.inner_or_outer (d : Doc) (path : Path) :
    (d.inner path).or (d.outer path) = d.reach path := by
  cases path with
  | nil => rfl
  | cons _ _ => exact Option.or_none

namespace Walk

variable {s : Setting}

/-- The slots of a node are filled with what `found` finds at their paths, as far as they were
    empty. -/
def Fills (n : Node) (found : Path → Option Doc) (w w' : Walker) : Prop :=
  ∀ i path, (i, path) ∈ n.places → w'.held i = (w.held i).or ((found path).map Doc.span)

/-- The slots of a node are as they were. -/
def KeepsPlaces (n : Node) (w w' : Walker) : Prop :=
  ∀ i path, (i, path) ∈ n.places → w'.held i = w.held i

theorem KeepsPlaces.of_slots (h : w'.slots = w.slots) : KeepsPlaces n w w' :=
  fun i _ _ => held_of_slots h i

theorem KeepsPlaces.trans {w'' : Walker} (h : KeepsPlaces n w w') (h' : KeepsPlaces n w' w'') :
    KeepsPlaces n w w'' := fun i path hi => (h' i path hi).trans (h i path hi)

/-- What bodies of loops do is nothing to the slots of the node. -/
theorem KeepsPlaces.of_moves (h : Moves loops n.BodySlot w w') (hn : n.Tidy) :
    KeepsPlaces n w w' := fun i path hi => h.held fun hb => by
  obtain ⟨l, hl, hb⟩ := hb
  exact hn.place_apart hi hl hb

/-! ## 1. What is shown of a node -/

/-- **The handler of a node answers what is true.** -/
structure Answers (c : Course) (s : Setting) (stall : Option Nat) (told : Told) (n : Node) :
    Prop where
  secure : Secure c s stall n
  read : ∀ k d w, Stands c stall told k (· ∈ n.slots) w →
    Poised c told k (some d) n (fun _ => none) w → d.Lies c.data →
    w.cursor.position = d.opening.stop →
    Sure c s told k.truth (· ∈ n.loopBuckets) (· ∈ n.slots) w (n.halting.read d.opening)
      fun v w' => v = d.value c.data ∧ w'.cursor.position = d.stop ∧ Fills n d.inner w w'
  finish : ∀ k d w, Stands c stall told k (· ∈ n.slots) w →
    Poised c told k (some d) n d.inner w → d.Lies c.data → w.cursor.position = d.stop →
    (d.opening.kind = .arrayStart → ∀ l ∈ n.loops, w.Known l.bucket) →
    (d.opening.kind = .objectStart → ∀ child ∈ n.children, ∀ b ∈ child.2.buckets, w.Known b) →
    Sure c s told k.truth (· ∈ n.loopBuckets) (· ∈ n.slots) w
      (n.halting.finish d.opening (d.value c.data)) fun _ w' => Fills n d.outer w w'
  missing : ∀ k w, Stands c stall told k (· ∈ n.slots) w →
    Poised c told k none n (fun _ => none) w →
    Sure c s told k.truth (· ∈ n.loopBuckets) (· ∈ n.slots) w n.halting.missing
      fun _ w' => KeepsPlaces n w w'

/-- **Handling a value.** -/
theorem Answers.handle (h : Answers c s stall told n) (hn : n.Fits c stall) {d : Doc}
    (hs : Stands c stall told k (· ∈ n.slots) w)
    (hp : Poised c told k (some d) n (fun _ => none) w) (hd : d.Lies c.data)
    (hpos : w.cursor.position = d.opening.stop) :
    Sure c s told k.truth (· ∈ n.loopBuckets) (· ∈ n.slots) w (n.halting.handle d.opening)
      fun _ w' => w'.cursor.position = d.stop ∧ (∀ b ∈ n.buckets, w'.Known b) ∧
        Fills n (fun path => d.reach path) w w' := by
  obtain ⟨hlt, hle, -⟩ := hd.bounds
  refine Sure.bind ((h.read k d w hs hp hd hpos).and_safe
    (h.secure.read w d.opening hs.fit hs.stall fun _ => by omega)) fun v w₁ hm₁ hfit₁ hr₁ h₁ => ?_
  obtain ⟨⟨rfl, hpos₁, hfill₁⟩, hlt₁, -, -, hloops, hchildren⟩ := h₁
  have hs₁ := hs.moves hm₁ hfit₁ hr₁
  have hp₁ : Poised c told k (some d) n d.inner w₁ := hp.keep
    (fun b hb hk => hm₁.known_of_node hn hs.fit.tree hb hk) fun i path hi he => by
      rw [hfill₁ i path hi, he]
      rfl
  refine ((h.finish k d w₁ hs₁ hp₁ hd hpos₁ hloops hchildren).and_safe
    (h.secure.finish w₁ d.opening _ hfit₁ hs₁.stall hlt₁ hloops hchildren)).mono
    fun _ w₂ _ _ _ h₂ => ?_
  obtain ⟨hfill₂, hknown, hsame⟩ := h₂
  refine ⟨hsame.trans hpos₁, hknown, fun i path hi => ?_⟩
  rw [hfill₂ i path hi, hfill₁ i path hi, Option.or_assoc, ← Option.map_or, Doc.inner_or_outer]

/-! ## 2. Tests, and loops that have no array -/

theorem Due.keep {reads : List Nat} {b : Nat} {v : Bool} (h : Due told k reads b v w)
    (hk : w.Known b → w'.Known b) (hh : w'.slots = w.slots) : Due told k reads b v w' :=
  fun hu => by
    have hu' : w.state.get b = .unknown := Classical.byContradiction fun hn => hk hn hu
    obtain ⟨hv, hr⟩ := h hu'
    exact ⟨hv, fun i hi => ⟨(hr i hi).1, (held_of_slots hh i).trans (hr i hi).2⟩⟩

/-- Tests of a node that are due. -/
theorem sure_tests {tests : List Test} {v : Value} (hn : n.Fits c stall)
    (ht : ∀ t ∈ tests, t ∈ n.allTests) (hs : Stands c stall told k slots w)
    (hd : ∀ t ∈ tests, Due told k t.check.slots t.bucket
      (t.check.holds s.decimals (k.captured c.data) v) w) :
    Sure c s told k.truth (· ∈ n.loopBuckets) slots w (tests.forM (test v)) fun _ w' =>
      w'.slots = w.slots := by
  refine sure_forM (K := fun _ w' => w'.slots = w.slots) hs.fit hs.right rfl
    fun t _ w₁ hm hm₁ hfit₁ hr₁ hsl₁ => ?_
  have hs₁ := hs.moves hm₁ hfit₁ hr₁
  obtain ⟨hb, hcount⟩ := hn.tests (ht t hm)
  have due := (hd t hm).keep (fun hk => hm₁.known_of_node hn hs.fit.tree
    (Node.mem_buckets.mpr (.inl ⟨t, ht t hm, rfl⟩)) hk) hsl₁
  refine (sure_test hfit₁ hr₁ ?_ hs.consistent hs₁.lasts hcount hs.lies due).mono
    fun _ w₂ _ _ _ h₂ => h₂.2.1.trans hsl₁
  rw [Walker.Markable, hs₁.stall]
  exact hb

/-- Loops that have no array. -/
theorem sure_failLoops (hn : n.Fits c stall) (hs : Stands c stall told k slots w)
    (hd : ∀ l ∈ n.loops, w.state.get l.bucket = .unknown → k.truth l.bucket = false) :
    Sure c s told k.truth (· ∈ n.loopBuckets) slots w (failLoops (n.loops.map Loop.halting))
      fun _ w' => w'.slots = w.slots := by
  unfold failLoops
  rw [List.forM_eq_forM, List.forM_map]
  simp only [Loop.halting_bucket]
  refine sure_forM (f := fun l : Loop => markIfUnknown l.bucket false)
    (K := fun _ w' => w'.slots = w.slots) hs.fit hs.right rfl
    fun l _ w₁ hl hm₁ hfit₁ hr₁ hsl₁ => ?_
  have hs₁ := hs.moves hm₁ hfit₁ hr₁
  have hl' : l ∈ n.allLoops := List.mem_append_left _ hl
  refine (sure_markIfUnknown hfit₁ hr₁ ?_ hs.consistent hs₁.lasts fun hu => ?_).mono
    fun _ w₂ _ _ _ h₂ => h₂.2.slots_eq.trans hsl₁
  · rw [Walker.Markable, hs₁.stall]
    exact (hn.loop hl').1.bucket
  · refine hd l hl (Classical.byContradiction fun hk => ?_)
    exact hm₁.known_of_node hn hs.fit.tree (Node.mem_buckets.mpr (.inr (.inl ⟨l, hl', rfl⟩))) hk hu

/-! ## 3. Children -/

/-- The slots of a node's children, with those of the loops there. -/
def ChildSlot (n : Node) (i : Nat) : Prop := ∃ child ∈ n.children, i ∈ child.2.slots

theorem ChildSlot.slot {i : Nat} (h : ChildSlot n i) : i ∈ n.slots := by
  obtain ⟨child, hc, hi⟩ := h
  exact Node.mem_slots.mpr (.inr (.inr ⟨child, hc, hi⟩))

theorem Sure.of_child {α : Type} {m : Walk α} {Q : α → Walker → Prop} {truth : Nat → Bool}
    {child : String × Node} (hc : child ∈ n.children)
    (h : Sure c s told truth (· ∈ child.2.loopBuckets) (· ∈ child.2.slots) w m Q) :
    Sure c s told truth (· ∈ n.loopBuckets) (ChildSlot n) w m Q :=
  h.widen (fun _ hi => Node.mem_loopBuckets.mpr (.inr ⟨child, hc, hi⟩)) fun _ hi => ⟨child, hc, hi⟩

/-- What handling one child does is nothing to the slots of another. -/
theorem KeepsPlaces.of_child (hn : n.Tidy) {c₁ c₂ : String × Node} (h₁ : c₁ ∈ n.children)
    (h₂ : c₂ ∈ n.children) (hne : c₁ ≠ c₂) (hm : Moves loops (· ∈ c₁.2.slots) w w') :
    KeepsPlaces c₂.2 w w' := fun _ _ hi => hm.held
  (hn.children_apart h₂ h₁ (Ne.symm hne) (Node.mem_slots_of_place hi))

/-- The slots of a node are filled as those of its children are. -/
theorem Fills.of_children (hn : n.Tidy) {found : Path → Option Doc} (h0 : found [] = none)
    (hm : Moves loops (ChildSlot n) w w')
    (h : ∀ child ∈ n.children, Fills child.2 (fun path => found (child.1 :: path)) w w') :
    Fills n found w w' := fun i path hi => by
  rcases Node.mem_places.mp hi with ⟨hslot, rfl⟩ | ⟨child, hc, rest, rfl, hrest⟩
  · rw [h0, Option.map_none, Option.or_none]
    exact hm.held fun ⟨child, hc, hs⟩ => (hn.own_apart hslot).1 child hc hs
  · exact h child hc i rest hrest

theorem fills_none : Fills n (fun _ => none) w w' ↔ KeepsPlaces n w w' := by
  simp only [Fills, KeepsPlaces, Option.map_none, Option.or_none]

/-- **Children that have no value.** Those that had one have been handled. -/
theorem sure_missingAll (hn : n.Fits c stall) (ht : n.Tidy)
    (hc : ∀ child ∈ n.children, Answers c s stall told child.2)
    (hs : Stands c stall told k (· ∈ n.slots) w)
    (hp : ∀ child ∈ n.children, Poised c told k none child.2 (fun _ => none) w) :
    Sure c s told k.truth (· ∈ n.loopBuckets) (ChildSlot n) w
      (missingAll (n.children.map fun child => (child.1, child.2.halting)))
      fun _ w' => KeepsPlaces n w w' := by
  unfold missingAll
  rw [List.forM_eq_forM, List.forM_map]
  refine (sure_forM (f := fun child : String × Node => child.2.halting.missing)
    (K := fun _ w' => ∀ child ∈ n.children, KeepsPlaces child.2 w w')
    hs.fit hs.right (fun _ _ _ _ _ => rfl) fun child rest w₁ hm hm₁ hfit₁ hr₁ hkeep => ?_).mono
    fun _ w' hm' _ _ h => fills_none.mp
      (Fills.of_children ht rfl hm' fun child hc => fills_none.mpr (h child hc))
  have hm₁' : Moves (· ∈ n.loopBuckets) (· ∈ n.slots) w w₁ :=
    hm₁.mono (fun _ h => h) fun _ h => h.slot
  have hs₁ := (hs.moves hm₁' hfit₁ hr₁).child hm
  have hp₁ := (hp child hm).keep (u := w₁) (g := fun _ => none)
    (fun b hb hk => hm₁.known_of_node hn hs.fit.tree
      (Node.mem_buckets.mpr (.inr (.inr ⟨child, hm, hb⟩))) hk)
    fun i path hi he => (hkeep child hm i path hi).trans he
  refine Sure.of_child hm (((hc child hm).missing k w₁ hs₁ hp₁).mono
    fun _ w₂ hm₂ _ _ h₂ => fun other ho => (hkeep other ho).trans ?_)
  by_cases he : child = other
  · subst he
    exact h₂
  · exact .of_child ht hm ho he hm₂

end Walk

end Sift
