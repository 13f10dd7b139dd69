import Sift.Proofs.Walk.Right

/-!
# Where a walker stands

`Stands c stall told k slots w`: the walker `w` is where a node may be handled in the scene `k`,
which changes no more than `slots`. It is kept by whatever a walk does (`Stands.moves`), and goes
over to the parts of a node (`Stands.child`, `Stands.during`, `Stands.late`).

`Poised` says of a node that it has not been handled yet and is right in the scene, or that all is
known that it is there to find out. The second is what an object with two members of one name
leads to: the node is handled again, and marks nothing.
-/

namespace Sift

open Resolution

variable {loops slots : Nat → Prop} {c : Course} {stall : Option Nat} {told : Told} {k : Scene}
  {n : Node} {v? : Option Doc} {w w' : Walker}

/-! ## 1. Standing in a scene -/

/-- **The walker stands in a scene.** -/
structure Stands (c : Course) (stall : Option Nat) (told : Told) (k : Scene) (slots : Nat → Prop)
    (w : Walker) : Prop where
  fit : w.Fit c
  stall : w.state.stall = stall
  right : w.Right told k.truth
  lasts : k.Lasts w
  consistent : c.tree.Consistent k.truth
  apart : ∀ i, k.reads i → ¬ slots i
  held : ∀ i, k.reads i → w.held i = (k.held i).map Doc.span
  unread : ∀ i, ¬ k.reads i → k.held i = none
  lies : ∀ i x, k.held i = some x → x.Lies c.data

theorem Stands.moves (h : Stands c stall told k slots w) (hm : Moves loops slots w w')
    (hfit : w'.Fit c) (hr : w'.Right told k.truth) : Stands c stall told k slots w' where
  fit := hfit
  stall := hm.stall.trans h.stall
  right := hr
  lasts := hm.lasts h.lasts
  consistent := h.consistent
  apart := h.apart
  held i hi := (hm.held (h.apart i hi)).trans (h.held i hi)
  unread := h.unread
  lies := h.lies

/-- With fewer slots that may change. -/
theorem Stands.mono {slots' : Nat → Prop} (h : Stands c stall told k slots w)
    (hs : ∀ i, slots' i → slots i) : Stands c stall told k slots' w :=
  { h with apart := fun i hi hs' => h.apart i hi (hs i hs') }

theorem Stands.child (h : Stands c stall told k (· ∈ n.slots) w) {child : String × Node}
    (hc : child ∈ n.children) : Stands c stall told k (· ∈ child.2.slots) w :=
  h.mono fun _ hi => Node.mem_slots.mpr (.inr (.inr ⟨child, hc, hi⟩))

/-- The slots of the bodies of a node's loops. -/
def Node.BodySlot (n : Node) (i : Nat) : Prop := ∃ l ∈ n.allLoops, i ∈ l.body.slots

theorem Node.BodySlot.slot {i : Nat} (h : n.BodySlot i) : i ∈ n.slots := by
  obtain ⟨l, hl, hi⟩ := h
  exact Node.mem_slots.mpr (.inr (.inl ⟨l, hl, hi⟩))

/-- While a value is read, its own slot is empty. -/
theorem Stands.during (h : Stands c stall told k (· ∈ n.slots) w) (hn : n.Tidy)
    (hs : ∀ i, n.slot = some i → w.held i = none) :
    Stands c stall told (k.during n) n.BodySlot w where
  fit := h.fit
  stall := h.stall
  right := h.right
  lasts := h.lasts
  consistent := h.consistent
  apart i hi hb := by
    rcases hi with hi | hi
    · exact h.apart i hi hb.slot
    · obtain ⟨l, hl, hb⟩ := hb
      exact (hn.own_apart hi).2 l hl hb
  held i hi := by
    rcases hi with hi | hi
    · exact h.held i hi
    · rw [hs i hi]
      have : k.held i = none := h.unread i fun hr => h.apart i hr (Node.mem_slots.mpr (.inl hi))
      exact (congrArg (Option.map Doc.span) this).symm
  unread i hi := h.unread i fun hr => hi (.inl hr)
  lies := h.lies

theorem Node.path?_of_not_mem {i : Nat} (h : i ∉ n.slots) : n.path? i = none := by
  cases hp : n.path? i with
  | none => rfl
  | some path => exact absurd (mem_slots_of_place (place_of_path? hp)) h

theorem Scene.late_held_of_place (hn : n.Tidy) {i : Nat} {path : Path} (hp : (i, path) ∈ n.places) :
    (k.late n v?).held i = v?.bind (Doc.reach path) := by
  simp only [Scene.late, Node.path?_of_place hn hp]

theorem Scene.late_held_of_not_mem {i : Nat} (h : i ∉ n.slots) :
    (k.late n v?).held i = k.held i := by
  simp only [Scene.late, Node.path?_of_not_mem h]

/-- **Once the value of a node has been read**, its slots may be looked at. -/
theorem Stands.late (h : Stands c stall told k (· ∈ n.slots) w) (hn : n.Tidy)
    (hd : ∀ d, v? = some d → d.Lies c.data)
    (hp : ∀ i path, (i, path) ∈ n.places → w.held i = (v?.bind (Doc.reach path)).map Doc.span) :
    Stands c stall told (k.late n v?) n.BodySlot w where
  fit := h.fit
  stall := h.stall
  right := h.right
  lasts := h.lasts
  consistent := h.consistent
  apart i hi hb := by
    rcases hi with hi | ⟨path, hi⟩
    · exact h.apart i hi hb.slot
    · obtain ⟨l, hl, hb⟩ := hb
      exact hn.place_apart hi hl hb
  held i hi := by
    rcases hi with hi | ⟨path, hi⟩
    · rw [Scene.late_held_of_not_mem (h.apart i hi)]
      exact h.held i hi
    · rw [Scene.late_held_of_place hn hi]
      exact hp i path hi
  unread i hi := by
    cases hq : n.path? i with
    | some path => exact absurd (.inr ⟨path, Node.place_of_path? hq⟩) hi
    | none =>
      simp only [Scene.late, hq]
      exact h.unread i fun hr => hi (.inl hr)
  lies i x hx := by
    cases hq : n.path? i with
    | none =>
      simp only [Scene.late, hq] at hx
      exact h.lies i x hx
    | some path =>
      simp only [Scene.late, hq] at hx
      obtain ⟨d, hv, hx⟩ := Option.bind_eq_some_iff.mp hx
      exact (hd d hv).reach hx

/-! ## 2. Nodes to be handled -/

/-- **A loop is right** over a value that may not be there, if `inner` is true of the elements. -/
structure Loop.Apt (c : Course) (told : Told) (k : Scene) (l : Loop) (d? : Option Doc)
    (inner : Doc → Nat → Bool) : Prop where
  consistent : ∀ x, c.tree.Consistent (inner x)
  answer : k.truth l.bucket = l.answer c d? inner
  means : ∀ items, d?.bind Doc.items? = some items → ∀ x ∈ items,
    l.body.Means c (k.inside (inner x) l x) (some x)
  tells : ∀ items, d?.bind Doc.items? = some items → ∀ x ∈ items, ∀ truth,
    l.body.Tells told (k.inside truth l x) (some x)

/-- A loop that waits is right over what its slot should hold. -/
def Loop.AptLate (c : Course) (told : Told) (k : Scene) (l : Loop) : Prop :=
  ∀ i, l.target = .slot i → k.reads i ∧ k.Tells told l.bucket i ∧
    ∃ inner, l.Apt c told k (k.held i) inner

/-- **A node that is right in a scene** and has not been handled. Its slots hold what `found` finds
    at their paths. -/
structure Fresh (c : Course) (told : Told) (k : Scene) (v? : Option Doc) (n : Node)
    (found : Path → Option Doc) (w : Walker) : Prop where
  means : n.Means c k v?
  tells : n.Tells told k v?
  places : ∀ i path, (i, path) ∈ n.places → w.held i = (found path).map Doc.span

/-- **A node that may be handled**: all is known already, or it is fresh. -/
def Poised (c : Course) (told : Told) (k : Scene) (v? : Option Doc) (n : Node)
    (found : Path → Option Doc) (w : Walker) : Prop :=
  (∀ b ∈ n.buckets, w.Known b) ∨ Fresh c told k v? n found w

section Poised

variable {found found' : Path → Option Doc}

theorem Poised.keep {u : Walker} {g : Path → Option Doc} (h : Poised c told k v? n found w)
    (hk : ∀ b ∈ n.buckets, w.Known b → u.Known b)
    (hp : ∀ i path, (i, path) ∈ n.places → w.held i = (found path).map Doc.span →
      u.held i = (g path).map Doc.span) : Poised c told k v? n g u := by
  rcases h with h | h
  · exact .inl fun b hb => hk b hb (h b hb)
  · exact .inr ⟨h.means, h.tells, fun i path hi => hp i path hi (h.places i path hi)⟩

theorem Poised.fresh (h : Poised c told k v? n found w) {b : Nat} (hb : b ∈ n.buckets)
    (hu : w.state.get b = .unknown) : Fresh c told k v? n found w :=
  h.resolve_left fun h => h b hb hu

/-- A test of the value of a node. -/
theorem Poised.test (h : Poised c told k v? n found w) (hs : Stands c stall told k slots w)
    {t : Test} (ht : t ∈ n.tests) :
    Walk.Due told k t.check.slots t.bucket
      (t.check.holds c.kit.decimals (k.captured c.data) (Doc.valueOf c.data v?)) w := fun hu => by
  have hf := h.fresh (Node.mem_buckets.mpr (.inl ⟨t, List.mem_append_left _ ht, rfl⟩)) hu
  obtain ⟨_, tests⟩ := hf.means
  obtain ⟨tells⟩ := hf.tells
  obtain ⟨hv, hr⟩ := tests t ht
  exact ⟨hv, fun i hi => ⟨tells t ht i hi, hs.held i (hr i hi)⟩⟩

/-- A loop over the value of a node. -/
theorem Fresh.loop (h : Fresh c told k v? n found w) {l : Loop} (hl : l ∈ n.loops) :
    ∃ inner, l.Apt c told (k.during n) v? inner := by
  obtain ⟨inner, -, -, loops, bodies, -, -, consistent, -⟩ := h.means
  obtain ⟨-, -, tells, -, -, -⟩ := h.tells
  exact ⟨inner l, consistent l, loops l hl, bodies l hl, tells l hl⟩

/-- A test that has waited for the value. -/
theorem Fresh.afterTest (h : Fresh c told k v? n found w)
    (hs : Stands c stall told (k.late n v?) slots w) {t : Test} (ht : t ∈ n.afterTests) :
    Walk.Due told (k.late n v?) t.check.slots t.bucket
      (t.check.holds c.kit.decimals ((k.late n v?).captured c.data) .missing) w := fun _ => by
  obtain ⟨_, -, afterTests⟩ := h.means
  obtain ⟨-, tells⟩ := h.tells
  obtain ⟨hv, hr⟩ := afterTests t ht
  exact ⟨hv, fun i hi => ⟨tells t ht i hi, hs.held i (hr i hi)⟩⟩

/-- A loop that has waited for the value. -/
theorem Fresh.afterLoop (h : Fresh c told k v? n found w) {l : Loop} (hl : l ∈ n.afterLoops) :
    l.AptLate c told (k.late n v?) := fun i hi => by
  obtain ⟨inner, -, -, -, -, afterLoops, bodies, consistent, -⟩ := h.means
  obtain ⟨-, -, -, tells, bodiesTell, -⟩ := h.tells
  obtain ⟨hv, hr⟩ := afterLoops l hl i hi
  exact ⟨hr, tells l hl i hi, inner l, consistent l, hv, bodies l hl i hi, bodiesTell l hl i hi⟩

/-- A loop over a value that is no array. -/
theorem Poised.noArray (h : Poised c told k v? n found w) (hv : v?.bind Doc.items? = none)
    {l : Loop} (hl : l ∈ n.loops) (hu : w.state.get l.bucket = .unknown) :
    k.truth l.bucket = false := by
  have hf := h.fresh (Node.mem_buckets.mpr
    (.inr (.inl ⟨l, List.mem_append_left _ hl, rfl⟩))) hu
  obtain ⟨inner, hapt⟩ := hf.loop hl
  have answer : k.truth l.bucket = _ := hapt.answer
  rw [answer, Loop.answer, hv]
  rfl

/-- A child of a node of which nothing has been read yet. -/
theorem Poised.child (h : Poised c told k v? n found w) {child : String × Node}
    (hc : child ∈ n.children) :
    Poised c told k (v?.bind (Doc.first child.1)) child.2 (fun path => found (child.1 :: path))
      w := by
  rcases h with h | h
  · exact .inl fun b hb => h b (Node.mem_buckets.mpr (.inr (.inr ⟨child, hc, hb⟩)))
  · obtain ⟨_, _, _, _, _, _, _, _, means⟩ := h.means
    obtain ⟨_, _, _, _, _, tells⟩ := h.tells
    exact .inr ⟨means child hc, tells child hc, fun i path hi => h.places i _
      (Node.mem_places.mpr (.inr ⟨child, hc, path, rfl, hi⟩))⟩

end Poised

end Sift
