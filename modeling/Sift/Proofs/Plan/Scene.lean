import Sift.Proofs.Document.Tree
import Sift.Proofs.Meaning.Plain
import Sift.Proofs.Plan.Fits
import Sift.Proofs.Plan.Tidy
import Sift.Proofs.Resolution.Truth

/-!
# What a plan means

A `Scene` is what a node can count on while the value at its place is handled: what is true of its
buckets, which slots it may read and what they hold. `Node.Means` says that a node is right in a
scene: every test and every loop comes to the truth of its bucket. It is told by the documents
alone, and says nothing of how a walk goes.

`Node.Tells` says of the slots that a node reads that they are what somebody, told by the trail of
the walk so far, expects them to be.
-/

namespace Sift

/-! ## 1. What a test depends on -/

namespace Operand

variable {captured captured' : Nat → Value} {active : Value}

mutual

/-- An operand depends on the slots that it reads only. -/
theorem value_congr : ∀ {o : Operand}, (∀ i ∈ o.slots, captured i = captured' i) →
    o.value captured active = o.value captured' active
  | .literal _, _ | .active, _ => rfl
  | .slot n, h => h n (by simp [slots])
  | .func _ args, h => by rw [value, value, valuesOfAll_congr h]

theorem valuesOfAll_congr : ∀ {os : List Operand}, (∀ i ∈ slotsOfAll os, captured i = captured' i) →
    valuesOfAll captured active os = valuesOfAll captured' active os
  | [], _ => rfl
  | o :: rest, h => by
    rw [valuesOfAll, valuesOfAll, value_congr fun i hi => h i (List.mem_append_left _ hi),
      valuesOfAll_congr fun i hi => h i (List.mem_append_right _ hi)]

end

end Operand

/-- A test depends on the slots that it reads only. -/
theorem Check.holds_congr {D : Decimals} {captured captured' : Nat → Value} {active : Value}
    {check : Check} (h : ∀ i ∈ check.slots, captured i = captured' i) :
    check.holds D captured active = check.holds D captured' active := by
  cases check with
  | relation r a b =>
    rw [holds, holds, Operand.value_congr fun i hi => h i (List.mem_append_left _ hi),
      Operand.value_congr fun i hi => h i (List.mem_append_right _ hi)]
  | _ => rw [holds, holds, Operand.value_congr h]

/-! ## 2. Scenes -/

/-- The first token of the element that the loop of a bucket has turned to last. -/
def currentIn (bucket : Nat) : List Event → Option Token
  | [] => none
  | .began b first _ _ :: rest => if b = bucket then some first else currentIn bucket rest
  | _ :: rest => currentIn bucket rest

/-- **What a node can count on.** -/
structure Scene where
  /-- The truth of each bucket. -/
  truth : Nat → Bool
  /-- The value that a slot holds. -/
  held : Nat → Option Doc
  /-- The slots that may be read. -/
  reads : Nat → Prop
  /-- The trails that there may be. -/
  now : List Event → Prop

namespace Scene

/-- The values that operands get from slots. -/
def captured (k : Scene) (data : Bytes) (s : Nat) : Value := Doc.valueOf data (k.held s)

/-- Once the value of a node has been read, its slots hold what the value has at their places. -/
def late (k : Scene) (n : Node) (v? : Option Doc) : Scene :=
  { k with
    held := fun s =>
      match n.path? s with
      | some path => v?.bind (Doc.reach path)
      | none => k.held s
    reads := fun s => k.reads s ∨ ∃ path, (s, path) ∈ n.places }

/-- While the value of a node is read, its own slot may be looked at too. Nothing is there yet. -/
def during (k : Scene) (n : Node) : Scene :=
  { k with reads := fun s => k.reads s ∨ n.slot = some s }

/-- In the body of a loop that has turned to an element, with what is true of it. -/
def inside (k : Scene) (truth : Nat → Bool) (l : Loop) (x : Doc) : Scene :=
  { k with
    truth
    now := fun trail => k.now trail ∧ currentIn l.bucket trail = some x.opening }

end Scene

/-! ## 3. Nodes that are right -/

/-- What a loop comes to over a value that may not be there, if `truth` is true of the elements. -/
def Loop.answer (l : Loop) (c : Course) (d? : Option Doc) (truth : Doc → Nat → Bool) : Bool :=
  l.mode.over (d?.bind Doc.items?) fun x => truth x (c.tree.node l.bucket).left

/-- **A node is right in a scene**, for the value at its place if there is one. -/
inductive Node.Means (c : Course) : Scene → Option Doc → Node → Prop
  | mk {k : Scene} {v? : Option Doc} {n : Node} (inner : Loop → Doc → Nat → Bool)
      (tests : ∀ t ∈ n.tests,
        k.truth t.bucket =
            t.check.holds c.kit.decimals (k.captured c.data) (Doc.valueOf c.data v?) ∧
          ∀ s ∈ t.check.slots, k.reads s)
      (afterTests : ∀ t ∈ n.afterTests,
        k.truth t.bucket = t.check.holds c.kit.decimals ((k.late n v?).captured c.data) .missing ∧
          ∀ s ∈ t.check.slots, (k.late n v?).reads s)
      (loops : ∀ l ∈ n.loops, k.truth l.bucket = l.answer c v? (inner l))
      (bodies : ∀ l ∈ n.loops, ∀ items, v?.bind Doc.items? = some items → ∀ x ∈ items,
        l.body.Means c ((k.during n).inside (inner l x) l x) (some x))
      (afterLoops : ∀ l ∈ n.afterLoops, ∀ s, l.target = .slot s →
        k.truth l.bucket = l.answer c ((k.late n v?).held s) (inner l) ∧ (k.late n v?).reads s)
      (afterBodies : ∀ l ∈ n.afterLoops, ∀ s, l.target = .slot s →
        ∀ items, ((k.late n v?).held s).bind Doc.items? = some items → ∀ x ∈ items,
          l.body.Means c ((k.late n v?).inside (inner l x) l x) (some x))
      (consistent : ∀ l x, c.tree.Consistent (inner l x))
      (children : ∀ child ∈ n.children, child.2.Means c k (v?.bind (Doc.first child.1))) :
      n.Means c k v?

/-! ## 4. Slots that are right -/

/-- What somebody who knows the trail so far expects of a slot that a bucket looks at. -/
abbrev Told := List Event → (reader slot : Nat) → Option Span → Prop

/-- The slot is what is expected, at every trail that there may be. -/
def Scene.Tells (k : Scene) (told : Told) (reader s : Nat) : Prop :=
  ∀ trail, k.now trail → told trail reader s ((k.held s).map Doc.span)

/-- **The slots that a node reads are what is expected.** -/
inductive Node.Tells (told : Told) : Scene → Option Doc → Node → Prop
  | mk {k : Scene} {v? : Option Doc} {n : Node}
      (tests : ∀ t ∈ n.tests, ∀ s ∈ t.check.slots, k.Tells told t.bucket s)
      (afterTests : ∀ t ∈ n.afterTests, ∀ s ∈ t.check.slots, (k.late n v?).Tells told t.bucket s)
      (bodies : ∀ l ∈ n.loops, ∀ items, v?.bind Doc.items? = some items → ∀ x ∈ items, ∀ truth,
        l.body.Tells told ((k.during n).inside truth l x) (some x))
      (afterLoops : ∀ l ∈ n.afterLoops, ∀ s, l.target = .slot s →
        (k.late n v?).Tells told l.bucket s)
      (afterBodies : ∀ l ∈ n.afterLoops, ∀ s, l.target = .slot s →
        ∀ items, ((k.late n v?).held s).bind Doc.items? = some items → ∀ x ∈ items, ∀ truth,
          l.body.Tells told ((k.late n v?).inside truth l x) (some x))
      (children : ∀ child ∈ n.children, child.2.Tells told k (v?.bind (Doc.first child.1))) :
      n.Tells told k v?

/-- Whoever expects nothing is never wrong. -/
theorem Node.tells_true (n : Node) : ∀ (k : Scene) (v? : Option Doc),
    n.Tells (fun _ _ _ _ => True) k v? := by
  induction n using Node.induct with
  | h n children loops afterLoops =>
    intro k v?
    exact .mk (fun _ _ _ _ _ _ => trivial) (fun _ _ _ _ _ _ => trivial)
      (fun l hl _ _ _ _ _ => loops l hl _ _) (fun _ _ _ _ _ _ => trivial)
      (fun l hl _ _ _ _ _ _ _ => afterLoops l hl _ _) fun child hc => children child hc _ _

end Sift
