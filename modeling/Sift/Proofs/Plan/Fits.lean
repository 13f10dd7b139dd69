import Sift.Toolkit
import Sift.Proofs.Plan.Parts
import Sift.Proofs.Resolution.Marks

/-!
# Plans that fit their tree

`Node.Fits` says of a node that it goes with the resolution tree and the slots of its plan: its
buckets lie below the loop that it belongs to, the buckets in the body of a loop lie below the
loop's, a loop rests on what its body marks, every slot exists, and a loop that waits has its
array in a slot. It says nothing of documents.
-/

namespace Sift

open Resolution

/-- What is the same for a whole walk: what the plan was compiled with, the document, the tree, how
    many slots there are, and which barriers may be marked. -/
structure Course where
  kit : Toolkit
  data : Bytes
  tree : Tree
  count : Nat
  marked : Nat → Prop

/-- A bucket of the tree that may be marked and lies below the stall. -/
structure Course.Bucket (c : Course) (stall : Option Nat) (b : Nat) : Prop where
  lt : b < c.tree.size
  below : ∀ i, stall = some i → c.tree.isBelow i b = true
  marked : c.marked b

/-- A loop whose bucket is a barrier over what its body marks. -/
structure Course.LoopFits (c : Course) (stall : Option Nat) (l : Loop) : Prop where
  bucket : c.Bucket stall l.bucket
  kind : (c.tree.node l.bucket).kind = .barrier
  rests : c.tree.Rests (· ∈ l.body.buckets) (c.tree.node l.bucket).left
  locals : ∀ s ∈ l.locals, s < c.count

/-- A bucket above which there are only barriers that are never marked. -/
def Course.Top (c : Course) (b : Nat) : Prop :=
  ∀ i, c.tree.isBelow i b = true → (c.tree.node i).kind = .barrier ∧ ¬ c.marked i

/-- **A node goes with the tree and the slots.** -/
inductive Node.Fits (c : Course) : (stall : Option Nat) → Node → Prop
  | mk {stall : Option Nat} {n : Node}
      (slot : ∀ s, n.slot = some s → s < c.count)
      (buckets : ∀ t ∈ n.allTests, c.Bucket stall t.bucket)
      (reads : ∀ t ∈ n.allTests, ∀ s ∈ t.check.slots, s < c.count)
      (loops : ∀ l ∈ n.allLoops, c.LoopFits stall l)
      (targets : ∀ l ∈ n.afterLoops, ∃ s, l.target = .slot s ∧ s < c.count)
      (apart : ∀ i ∈ n.loopBuckets, ∀ b ∈ n.buckets, c.tree.isBelow i b = false)
      (locals : ∀ l ∈ n.allLoops, ∀ s ∈ l.locals, s ∈ l.body.slots)
      (bodies : ∀ l ∈ n.allLoops, l.body.Fits c (some l.bucket))
      (children : ∀ child ∈ n.children, child.2.Fits c stall) : n.Fits c stall

namespace Node.Fits

variable {c : Course} {stall : Option Nat} {n : Node}

theorem slot (h : n.Fits c stall) : ∀ s, n.slot = some s → s < c.count := by
  cases h; assumption

theorem tests (h : n.Fits c stall) {t : Test} (ht : t ∈ n.allTests) :
    c.Bucket stall t.bucket ∧ ∀ s ∈ t.check.slots, s < c.count := by
  cases h with
  | mk _ buckets reads => exact ⟨buckets t ht, reads t ht⟩

theorem loop (h : n.Fits c stall) {l : Loop} (hl : l ∈ n.allLoops) :
    c.LoopFits stall l ∧ l.body.Fits c (some l.bucket) ∧ ∀ s ∈ l.locals, s ∈ l.body.slots := by
  cases h with
  | mk _ _ _ loops _ _ locals bodies _ => exact ⟨loops l hl, bodies l hl, locals l hl⟩

theorem target (h : n.Fits c stall) {l : Loop} (hl : l ∈ n.afterLoops) :
    ∃ s, l.target = .slot s ∧ s < c.count := by
  cases h with
  | mk _ _ _ _ targets => exact targets l hl

theorem apart (h : n.Fits c stall) {i b : Nat} (hi : i ∈ n.loopBuckets) (hb : b ∈ n.buckets) :
    c.tree.isBelow i b = false := by
  cases h with
  | mk _ _ _ _ _ apart => exact apart i hi b hb

theorem child (h : n.Fits c stall) {child : String × Node} (hc : child ∈ n.children) :
    child.2.Fits c stall := by
  cases h with
  | mk _ _ _ _ _ _ _ _ children => exact children child hc

end Node.Fits

end Sift
