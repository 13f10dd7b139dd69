import Sift.Proofs.Plan.Flat
import Sift.Proofs.Plan.Outline

/-!
# Where the parts of a plan come from

`Part.Built kit Γ q part b o` says that the part at path `q` is what compiling makes of the leaf `o`
of an outline at bucket `b`, where `Γ` tells which slots have been given to fields. It says how a
test gets at the values of its fields, where a test or a loop is placed, and that the body of a loop
is built of the leaves inside. Giving slots to more fields changes nothing of it (`Part.Built.mono`).

That is all that has to be known of compiling. A part that is built of a leaf fits the tree
(`Part.Built.fits`), and comes to what is made of the leaf (`Part.Built.means`).
-/

namespace Sift

open Resolution
open Plan (commonPath)

/-! ## 1. Slots of fields -/

/-- The variables that are bound, innermost first, each with the slots given to fields of it. -/
abbrev Homes := List (Variable × List (Nat × Path))

/-- The innermost variable. -/
def Homes.cur (Γ : Homes) : Variable := (Γ.head?.map (·.1)).getD Variable.root

/-- **The slot is given to the field.** -/
def Home : Homes → Field → Nat → Prop
  | [], _, _ => False
  | (var, places) :: rest, f, s => if f.root = var then (s, f.path) ∈ places else Home rest f s

/-- More slots are given. -/
def Grown (Γ Γ' : Homes) : Prop :=
  List.Forall₂ (fun a b => a.1 = b.1 ∧ ∀ p ∈ a.2, p ∈ b.2) Γ Γ'

section Homes

variable {Γ Γ' Γ'' : Homes} {f : Field} {s : Nat}

theorem Grown.refl (Γ : Homes) : Grown Γ Γ :=
  List.forall₂_same.mpr fun _ _ => ⟨rfl, fun _ h => h⟩

theorem Grown.cur (h : Grown Γ Γ') : Γ'.cur = Γ.cur := by
  cases h with
  | nil => rfl
  | cons h _ => exact h.1.symm

theorem Grown.home (h : Grown Γ Γ') : Home Γ f s → Home Γ' f s := by
  induction h with
  | nil => exact id
  | @cons a b _ _ hab _ ih =>
    obtain ⟨var, places⟩ := a
    obtain ⟨var', places'⟩ := b
    obtain ⟨rfl, hplaces⟩ := hab
    intro hs
    rw [Home] at hs ⊢
    split
    · next he =>
      rw [if_pos he] at hs
      exact hplaces _ hs
    · next he =>
      rw [if_neg he] at hs
      exact ih hs

end Homes

/-! ## 2. Tests -/

/-- The field is the one at whose node a test stands. -/
def Field.Active (Γ : Homes) (active : Option Path) (f : Field) : Prop :=
  f.root = Γ.cur ∧ active = some f.path

/-- The values `V` of fields are those that operands get: `v` of the field at the node, and
    `captured` of the slots of any other. -/
structure Supplies (Γ : Homes) (active : Option Path) (fields : List Field) (V : Field → Value)
    (captured : Nat → Value) (v : Value) : Prop where
  here : ∀ f ∈ fields, f.Active Γ active → V f = v
  away : ∀ f ∈ fields, ¬ f.Active Γ active → ∀ s, Home Γ f s → V f = captured s

/-- The slots have been given to fields of `fields` away from the node. -/
def OfFields (Γ : Homes) (active : Option Path) (fields : List Field) (slots : List Nat) : Prop :=
  ∀ s ∈ slots, ∃ f ∈ fields, ¬ f.Active Γ active ∧ Home Γ f s

/-- **The check is the test that the expression is.** -/
structure Check.Serves (kit : Toolkit) (Γ : Homes) (active : Option Path) (check : Check)
    (e : Expr) : Prop where
  slots : OfFields Γ active e.free check.slots
  holds : ∀ V captured v, Supplies Γ active e.free V captured v →
    check.holds kit.decimals captured v = e.testBy kit V

section Grown

variable {kit : Toolkit} {Γ Γ' : Homes} {active : Option Path} {fields : List Field}

theorem Field.Active.grown {f : Field} (h : Grown Γ Γ') :
    f.Active Γ' active ↔ f.Active Γ active := by
  rw [Field.Active, Field.Active, h.cur]

theorem Supplies.grown {V : Field → Value} {captured : Nat → Value} {v : Value}
    (hs : Supplies Γ' active fields V captured v) (h : Grown Γ Γ') :
    Supplies Γ active fields V captured v :=
  ⟨fun f hf ha => hs.here f hf ((Field.Active.grown h).mpr ha),
    fun f hf ha s hh => hs.away f hf (mt (Field.Active.grown h).mp ha) s (h.home hh)⟩

theorem OfFields.grown {slots : List Nat} (hs : OfFields Γ active fields slots)
    (h : Grown Γ Γ') : OfFields Γ' active fields slots := fun s hm => by
  obtain ⟨f, hf, ha, hh⟩ := hs s hm
  exact ⟨f, hf, mt (Field.Active.grown h).mp ha, h.home hh⟩

theorem OfFields.append {fields' : List Field} {slots slots' : List Nat}
    (h : OfFields Γ active fields slots) (h' : OfFields Γ active fields' slots') :
    OfFields Γ active (fields ++ fields') (slots ++ slots') := fun s hs => by
  rcases List.mem_append.mp hs with hs | hs
  · obtain ⟨f, hf, hr⟩ := h s hs
    exact ⟨f, List.mem_append_left _ hf, hr⟩
  · obtain ⟨f, hf, hr⟩ := h' s hs
    exact ⟨f, List.mem_append_right _ hf, hr⟩

theorem Supplies.of_subset {fields' : List Field} {V : Field → Value}
    {captured : Nat → Value} {v : Value} (h : Supplies Γ active fields V captured v)
    (hs : ∀ f ∈ fields', f ∈ fields) : Supplies Γ active fields' V captured v :=
  ⟨fun f hf => h.here f (hs f hf), fun f hf => h.away f (hs f hf)⟩

theorem Check.Serves.grown {check : Check} {e : Expr} (hs : check.Serves kit Γ active e)
    (h : Grown Γ Γ') : check.Serves kit Γ' active e :=
  ⟨hs.slots.grown h, fun V captured v hv => hs.holds V captured v (hv.grown h)⟩

end Grown

/-! ## 3. Parts of leaves -/

/-- A part is a test or a loop. -/
def Part.Works (part : Part) : Prop := ∀ s, part ≠ .slot s

/-- **The part is what compiling makes of a leaf** at a bucket. -/
inductive Part.Built (kit : Toolkit) : Homes → Path → Part → Nat → Outline → Prop
  /-- A test that reads one field of its scope stands at the field. -/
  | test {Γ : Homes} {path : Path} {b : Nat} {check : Check} {e : Expr} (isTest : e.isTest = true)
      (single : ownPaths Γ.cur e.fields [] = [path]) (serves : check.Serves kit Γ (some path) e) :
      Built kit Γ path (.test ⟨b, check⟩) b (.test e)
  /-- Any other waits where the paths of its fields part. -/
  | afterTest {Γ : Homes} {b : Nat} {check : Check} {e : Expr} (isTest : e.isTest = true)
      (several : ∀ path, ownPaths Γ.cur e.fields [] ≠ [path])
      (serves : check.Serves kit Γ none e) :
      Built kit Γ (commonPath (ownPaths Γ.cur e.fields [])) (.afterTest ⟨b, check⟩) b (.test e)
  /-- A loop that reads nothing but its array stands at the array. -/
  | loop {Γ : Homes} {b : Nat} {mode : LoopMode} {var : Variable} {f : Field} {body : Expr}
      {node : Node} {locals : List Nat} (inline : IsInline Γ.cur f var body)
      (origin : Path × Part → Nat × Outline)
      (mem : ∀ p ∈ node.parts, p.2.Works → origin p ∈ body.outline.leaves (b + 1))
      (built : ∀ p ∈ node.parts, p.2.Works →
        Built kit ((var, node.places) :: Γ) p.1 p.2 (origin p).1 (origin p).2)
      (covers : node.buckets.Perm ((body.outline.leaves (b + 1)).map (·.1))) :
      Built kit Γ f.path (.loop ⟨b, mode, .active, node, locals⟩) b
        (.loop mode var (.field f) body body.outline)
  /-- Any other waits where the paths part that it reads. -/
  | afterLoop {Γ : Homes} {b s : Nat} {mode : LoopMode} {var : Variable} {f : Field} {body : Expr}
      {node : Node} {locals : List Nat} (late : ¬ IsInline Γ.cur f var body) (home : Home Γ f s)
      (origin : Path × Part → Nat × Outline)
      (mem : ∀ p ∈ node.parts, p.2.Works → origin p ∈ body.outline.leaves (b + 1))
      (built : ∀ p ∈ node.parts, p.2.Works →
        Built kit ((var, node.places) :: Γ) p.1 p.2 (origin p).1 (origin p).2)
      (covers : node.buckets.Perm ((body.outline.leaves (b + 1)).map (·.1))) :
      Built kit Γ (commonPath (loopPaths Γ.cur f var body))
        (.afterLoop ⟨b, mode, .slot s, node, locals⟩) b
        (.loop mode var (.field f) body body.outline)

namespace Part.Built

variable {kit : Toolkit} {Γ Γ' : Homes} {q : Path} {part : Part} {b : Nat} {o : Outline}

theorem bucket (h : part.Built kit Γ q b o) : part.bucket? = some b := by
  cases h <;> rfl

theorem works (h : part.Built kit Γ q b o) : part.Works := by
  cases h <;> exact nofun

theorem mono (h : part.Built kit Γ q b o) : Grown Γ Γ' → part.Built kit Γ' q b o := by
  induction h generalizing Γ' with
  | test isTest single serves => exact fun hg => .test isTest (hg.cur ▸ single) (serves.grown hg)
  | afterTest isTest several serves =>
    intro hg
    rw [← hg.cur]
    exact .afterTest isTest (hg.cur ▸ several) (serves.grown hg)
  | loop inline origin mem _ covers ih =>
    exact fun hg => .loop (hg.cur ▸ inline) origin mem
      (fun p hp hw => ih p hp hw (.cons ⟨rfl, fun _ h => h⟩ hg)) covers
  | afterLoop late home origin mem _ covers ih =>
    intro hg
    rw [← hg.cur]
    exact .afterLoop (hg.cur ▸ late) (hg.home home) origin mem
      (fun p hp hw => ih p hp hw (.cons ⟨rfl, fun _ h => h⟩ hg)) covers

end Part.Built

/-- **The parts of a node are built of leaves**, and every leaf has its one part. -/
structure Node.BuiltOf (kit : Toolkit) (Γ : Homes) (n : Node) (leaves : List (Nat × Outline)) :
    Prop where
  built : ∀ p ∈ n.parts, p.2.Works → ∃ l ∈ leaves, p.2.Built kit Γ p.1 l.1 l.2
  covers : n.buckets.Perm (leaves.map (·.1))

namespace Node.BuiltOf

variable {kit : Toolkit} {Γ Γ' : Homes} {n : Node} {leaves : List (Nat × Outline)}

theorem mono (h : n.BuiltOf kit Γ leaves) (hg : Grown Γ Γ') : n.BuiltOf kit Γ' leaves where
  built p hp hw := by
    obtain ⟨l, hl, hb⟩ := h.built p hp hw
    exact ⟨l, hl, hb.mono hg⟩
  covers := h.covers

/-- The leaf that a part is built of is told by a function. -/
theorem origin (h : n.BuiltOf kit Γ leaves) : ∃ origin : Path × Part → Nat × Outline,
    (∀ p ∈ n.parts, p.2.Works → origin p ∈ leaves) ∧
      ∀ p ∈ n.parts, p.2.Works → p.2.Built kit Γ p.1 (origin p).1 (origin p).2 := by
  have total (p : Path × Part) : ∃ l : Nat × Outline, p ∈ n.parts → p.2.Works →
      l ∈ leaves ∧ p.2.Built kit Γ p.1 l.1 l.2 := by
    by_cases hp : p ∈ n.parts ∧ p.2.Works
    · obtain ⟨l, hl⟩ := h.built p hp.1 hp.2
      exact ⟨l, fun _ _ => hl⟩
    · exact ⟨(0, .test (.truth false)), fun h hw => absurd ⟨h, hw⟩ hp⟩
  choose origin h using total
  exact ⟨origin, fun p hp hw => (h p hp hw).1, fun p hp hw => (h p hp hw).2⟩

end Node.BuiltOf

/-! ## 4. Fitting the tree -/

/-- In a tidy node all loops are right. -/
theorem Node.Tidy.parts (n : Node) : n.Tidy → ∀ p ∈ n.parts, p.2.Tidy := by
  induction n using Node.induct with
  | h n children _ _ =>
    rintro ht ⟨q, part⟩ hp l hl
    rcases mem_parts.mp hp with ⟨-, hp⟩ | ⟨c, hc, r, -, hp⟩
    · have hm : l ∈ n.allLoops := mem_allLoops.mpr ⟨part, hp, hl⟩
      exact ⟨fun s => ht.locals hm, ht.body hm⟩
    · exact children c hc (ht.child hc) (r, part) hp l hl

theorem Node.mem_slots_of_part {n : Node} {p : Path × Part} (hp : p ∈ n.parts) {s : Nat}
    (hs : s ∈ p.2.slots) : s ∈ n.slots :=
  n.slots_perm.mem_iff.mpr (List.mem_flatMap.mpr ⟨p, hp, hs⟩)

/-- The buckets from `b` on, as many as the outline has. -/
def Outline.Covers (o : Outline) (b j : Nat) : Prop := b ≤ j ∧ j < b + o.size

namespace Outline

theorem covers_self (o : Outline) (b : Nat) : o.Covers b b :=
  ⟨Nat.le_refl b, Nat.lt_add_of_pos_right o.size_pos⟩

/-- What is inside a loop has buckets of the loop, below its own. -/
theorem Covers.of_inside {mode : LoopMode} {var : Variable} {target body : Expr} {inside : Outline}
    {b j : Nat} (h : inside.Covers (b + 1) j) :
    b < j ∧ (Outline.loop mode var target body inside).Covers b j := by
  have hsize : (Outline.loop mode var target body inside).size = inside.size + 1 := rfl
  obtain ⟨h₁, h₂⟩ := h
  exact ⟨by omega, by omega, by omega⟩

/-- **Leaves have no bucket in common.** -/
theorem leaf_of_covers {o : Outline} {i j : Nat} {l l' : Nat × Outline} (hl : l ∈ o.leaves i)
    (hl' : l' ∈ o.leaves i) (h : l.2.Covers l.1 j) (h' : l'.2.Covers l'.1 j) : l = l' := by
  by_contra hne
  have symm : Std.Symm fun l l' : Nat × Outline =>
      l.1 + l.2.size ≤ l'.1 ∨ l'.1 + l'.2.size ≤ l.1 := ⟨fun _ _ => Or.symm⟩
  have apart : (o.leaves i).Pairwise fun l l' =>
      l.1 + l.2.size ≤ l'.1 ∨ l'.1 + l'.2.size ≤ l.1 := (o.leaves_pairwise i).imp Or.inl
  have := apart.forall hl hl' hne
  obtain ⟨h₁, h₂⟩ := h
  obtain ⟨h₁', h₂'⟩ := h'
  omega

/-- So no leaf lies below another. -/
theorem not_below_of_leaves {t : Tree} (hv : t.Valid) {o : Outline} {i : Nat}
    {l l' : Nat × Outline} (hl : l ∈ o.leaves i) (hl' : l' ∈ o.leaves i)
    (h : l.2.formula.Laid t l.1) : t.isBelow l.1 l'.1 = false := by
  refine Bool.eq_false_iff.mpr fun hb => ?_
  obtain ⟨hlt, hle⟩ := (h.isBelow_iff hv).mp hb
  rw [leaf_of_covers hl hl' ⟨Nat.le_of_lt hlt, hle⟩ (l'.2.covers_self l'.1)] at hlt
  exact absurd hlt (Nat.lt_irrefl _)

end Outline

/-- **A node whose parts are made of leaves fits** if the parts do. -/
theorem Node.fits_of_leaves {c : Course} (hv : c.tree.Valid) {stall : Option Nat} {n : Node}
    {o : Outline} {i : Nat} (hl : o.formula.Laid c.tree i) (ht : n.Tidy)
    (hslots : ∀ s ∈ n.slots, s < c.count)
    (hleaf : ∀ p ∈ n.parts, p.2.Works → ∃ l ∈ o.leaves i, p.2.bucket? = some l.1)
    (hfits : ∀ p ∈ n.parts, p.2.Works → p.2.Fits c stall) : n.Fits c stall := by
  have leaf {p : Path × Part} (hp : p ∈ n.parts) {b : Nat} (hb : p.2.bucket? = some b) :
      ∃ l ∈ o.leaves i, l.1 = b := by
    obtain ⟨l, hl, he⟩ := hleaf p hp fun s hs => by
      rw [hs] at hb
      cases hb
    rw [hb] at he
    exact ⟨l, hl, (Option.some.inj he).symm⟩
  refine n.fits_of_parts ht (fun p hp => ?_) fun a ha b hb => ?_
  · by_cases hw : p.2.Works
    · exact hfits p hp hw
    · obtain ⟨s, hs⟩ := not_forall_not.mp hw
      rw [hs]
      exact hslots s (mem_slots_of_part hp (by rw [hs]; exact List.mem_singleton.mpr rfl))
  · obtain ⟨p, hp, l, hpl, rfl⟩ := mem_loopBuckets_iff.mp ha
    obtain ⟨p', hp', hb⟩ := mem_buckets_iff.mp hb
    obtain ⟨la, hla, he⟩ := leaf hp (Part.bucket_of_loop hpl)
    obtain ⟨lb, hlb, rfl⟩ := leaf hp' hb
    rw [← he]
    exact Outline.not_below_of_leaves hv hla hlb (Outline.leaf_laid hl hla)

/-- **The part fits** wherever the leaf is laid, if its slots exist. -/
def Part.FitsAs (c : Course) (Γ : Homes) (part : Part) (b : Nat) (o : Outline) : Prop :=
  ∀ stall : Option Nat, o.formula.Laid c.tree b → (∀ j, o.Covers b j → c.Bucket stall j) →
    (∀ f s, Home Γ f s → s < c.count) → (∀ s ∈ part.slots, s < c.count) → part.Tidy →
    part.Fits c stall

section Fits

variable {kit : Toolkit} {c : Course} {Γ : Homes} {b : Nat}

theorem Check.Serves.lt {active : Option Path} {check : Check} {e : Expr}
    (h : check.Serves kit Γ active e) (hhome : ∀ f s, Home Γ f s → s < c.count) :
    ∀ s ∈ check.slots, s < c.count := fun s hs => by
  obtain ⟨f, -, -, hf⟩ := h.slots s hs
  exact hhome f s hf

/-- A loop fits if the parts of its body do. -/
theorem Loop.fits_of_body (hv : c.tree.Valid) {l : Loop} {mode : LoopMode} {var : Variable}
    {f : Field} {body : Expr} {origin : Path × Part → Nat × Outline}
    (mem : ∀ p ∈ l.body.parts, p.2.Works → origin p ∈ body.outline.leaves (l.bucket + 1))
    (built : ∀ p ∈ l.body.parts, p.2.Works →
      p.2.Built kit ((var, l.body.places) :: Γ) p.1 (origin p).1 (origin p).2)
    (covers : l.body.buckets.Perm ((body.outline.leaves (l.bucket + 1)).map (·.1)))
    (ih : ∀ p ∈ l.body.parts, p.2.Works →
      p.2.FitsAs c ((var, l.body.places) :: Γ) (origin p).1 (origin p).2)
    {stall : Option Nat}
    (hl : (Outline.loop mode var (.field f) body body.outline).formula.Laid c.tree l.bucket)
    (hb : ∀ j, (Outline.loop mode var (.field f) body body.outline).Covers l.bucket j →
      c.Bucket stall j)
    (hhome : ∀ f s, Home Γ f s → s < c.count) (hslots : ∀ s ∈ l.body.slots, s < c.count)
    (hlocals : ∀ s, s ∈ l.locals ↔ ∃ path, (s, path) ∈ l.body.places) (ht : l.body.Tidy) :
    c.LoopFits stall l ∧ l.body.Fits c (some l.bucket) := by
  obtain ⟨hlt, hkind, hleft, -, hbody⟩ := id hl
  refine ⟨⟨hb _ (Outline.covers_self _ _), hkind, ?_, fun s hs => ?_⟩, ?_⟩
  · rw [hleft]
    exact Outline.rests body.single_outline hbody fun _ hl =>
      covers.mem_iff.mpr (List.mem_map_of_mem hl)
  · obtain ⟨path, hp⟩ := (hlocals s).mp hs
    exact hslots s (Node.mem_slots_of_place hp)
  refine Node.fits_of_leaves hv hbody ht hslots
    (fun p hp hw => ⟨origin p, mem p hp hw, (built p hp hw).bucket⟩) fun p hp hw => ?_
  have hr := Outline.range_of_mem (mem p hp hw)
  refine ih p hp hw _ (Outline.leaf_laid hbody (mem p hp hw)) (fun j hj => ?_)
    (fun f s hs => ?_) (fun s hs => hslots s (Node.mem_slots_of_part hp hs))
    (ht.parts _ p hp)
  · have hin : body.outline.Covers (l.bucket + 1) j :=
      ⟨Nat.le_trans hr.1 hj.1, Nat.lt_of_lt_of_le hj.2 hr.2⟩
    obtain ⟨hbelow, hcovers⟩ := hin.of_inside
    obtain ⟨hlt, -, hm⟩ := hb j hcovers
    refine ⟨hlt, fun i hi => ?_, hm⟩
    cases hi
    exact (hl.isBelow_iff hv).mpr ⟨hbelow, hcovers.2⟩
  · rw [Home] at hs
    split at hs
    · exact hslots s (Node.mem_slots_of_place hs)
    · exact hhome f s hs

/-- **A part that is built of a leaf fits.** -/
theorem Part.Built.fits (hv : c.tree.Valid) {q : Path} {part : Part} {o : Outline}
    (h : part.Built kit Γ q b o) : part.FitsAs c Γ b o := by
  induction h with
  | test isTest single serves =>
    intro stall hl hb hhome _ _
    exact ⟨hb _ (Outline.covers_self _ _), serves.lt hhome⟩
  | afterTest isTest _ serves =>
    intro stall hl hb hhome _ _
    exact ⟨hb _ (Outline.covers_self _ _), serves.lt hhome⟩
  | loop inline origin mem built covers ih =>
    intro stall hl hb hhome hslots hok
    obtain ⟨hlocals, ht⟩ := hok _ rfl
    exact Loop.fits_of_body hv mem built covers ih hl hb hhome hslots hlocals ht
  | afterLoop late home origin mem built covers ih =>
    intro stall hl hb hhome hslots hok
    obtain ⟨hlocals, ht⟩ := hok _ rfl
    exact ⟨Loop.fits_of_body hv mem built covers ih hl hb hhome hslots hlocals ht, _, rfl,
      hhome _ _ home⟩

end Fits

end Sift
