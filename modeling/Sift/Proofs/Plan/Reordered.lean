import Mathlib.Data.List.Perm.Basic
import Sift.Proofs.Plan.Compiled

/-!
# Children in another order

The children of a node are kept by their names, and nothing says in which order they are gone
through. `Node.Reordered n n'` says that `n'` is the node `n` with its children, and those of all
nodes below it, in some other order.

A plan whose nodes are reordered is as good as the plan: what expressions have been compiled into
stays what they have been compiled into (`Plan.Compiled.reordered`). So what is said of matching is
said of every order of the children (`Plan.compiled_of_reordered`).
-/

namespace Sift

open Resolution

/-! ## 1. Nodes in another order -/

/-- Two loops that are the same but for their bodies. -/
inductive Loop.Alike (R : Node → Node → Prop) : Loop → Loop → Prop
  | mk {bucket : Nat} {mode : LoopMode} {target : Operand} {n n' : Node} {locals : List Nat}
      (body : R n n') : Alike R ⟨bucket, mode, target, n, locals⟩ ⟨bucket, mode, target, n', locals⟩

/-- Two children of the same name. -/
inductive Node.AlikeChild (R : Node → Node → Prop) : String × Node → String × Node → Prop
  | mk {name : String} {n n' : Node} (node : R n n') : AlikeChild R (name, n) (name, n')

/-- **The same node with its children in another order**, and so on below. -/
inductive Node.Reordered : Node → Node → Prop
  | mk {slot : Option Nat} {tests afterTests : List Test} {l l' al al' : List Loop}
      {cs cs' order : List (String × Node)} (loops : List.Forall₂ (Loop.Alike Reordered) l l')
      (perm : cs.Perm order) (children : List.Forall₂ (AlikeChild Reordered) order cs')
      (afterLoops : List.Forall₂ (Loop.Alike Reordered) al al') :
      Reordered ⟨slot, tests, l, cs, afterTests, al⟩ ⟨slot, tests, l', cs', afterTests, al'⟩

/-- The same plan with the children of its nodes in another order. -/
structure Plan.Reordered (p p' : Plan) : Prop where
  root : p.root.Reordered p'.root
  tree : p'.tree = p.tree
  buckets : p'.buckets = p.buckets
  slots : p'.slots = p.slots

namespace Node

/-- The same loop over a body in another order. -/
abbrev ReorderedLoop : Loop → Loop → Prop := Loop.Alike Reordered

/-- The same child in another order. -/
abbrev ReorderedChild : String × Node → String × Node → Prop := AlikeChild Reordered

variable {n n' n'' : Node}

/-! ## 2. What stays the same -/

section Same

variable {l l' : Loop} (h : ReorderedLoop l l')

include h

theorem ReorderedLoop.bucket : l'.bucket = l.bucket := by cases h; rfl

theorem ReorderedLoop.mode : l'.mode = l.mode := by cases h; rfl

theorem ReorderedLoop.target : l'.target = l.target := by cases h; rfl

theorem ReorderedLoop.locals : l'.locals = l.locals := by cases h; rfl

theorem ReorderedLoop.body : l.body.Reordered l'.body := by cases h; assumption

end Same

theorem ReorderedChild.name {c c' : String × Node} (h : ReorderedChild c c') : c'.1 = c.1 := by
  cases h; rfl

theorem ReorderedChild.node {c c' : String × Node} (h : ReorderedChild c c') :
    c.2.Reordered c'.2 := by
  cases h; assumption

namespace Reordered

variable (h : n.Reordered n')

include h

theorem slot : n'.slot = n.slot := by cases h; rfl

theorem tests : n'.tests = n.tests := by cases h; rfl

theorem afterTests : n'.afterTests = n.afterTests := by cases h; rfl

theorem loops : List.Forall₂ ReorderedLoop n.loops n'.loops := by cases h; assumption

theorem afterLoops : List.Forall₂ ReorderedLoop n.afterLoops n'.afterLoops := by
  cases h; assumption

theorem allLoops : List.Forall₂ ReorderedLoop n.allLoops n'.allLoops :=
  List.rel_append h.loops h.afterLoops

theorem allTests : n'.allTests = n.allTests := by rw [Node.allTests, h.tests, h.afterTests]; rfl

theorem children : ∃ order, n.children.Perm order ∧
    List.Forall₂ ReorderedChild order n'.children := by
  cases h with
  | mk _ perm children => exact ⟨_, perm, children⟩

/-- The children may as well be put in order after they have been reordered. -/
theorem children_after : ∃ order, List.Forall₂ ReorderedChild n.children order ∧
    order.Perm n'.children := by
  obtain ⟨_, hperm, hall⟩ := h.children
  exact List.perm_comp_forall₂ hperm hall

end Reordered

/-! ## 3. Orders -/

/-- What is related element by element is related the other way round. -/
theorem forall₂_symm {α : Type} {R : α → α → Prop} {l l' : List α} (h : List.Forall₂ R l l')
    (hsymm : ∀ a ∈ l, ∀ b, R a b → R b a) : List.Forall₂ R l' l := by
  induction h with
  | nil => exact .nil
  | cons hab _ ih =>
    exact .cons (hsymm _ List.mem_cons_self _ hab)
      (ih fun a ha => hsymm a (List.mem_cons_of_mem _ ha))

theorem forall₂_trans {α : Type} {R : α → α → Prop} {l l' l'' : List α}
    (h : List.Forall₂ R l l') (h' : List.Forall₂ R l' l'')
    (htrans : ∀ a ∈ l, ∀ b c, R a b → R b c → R a c) : List.Forall₂ R l l'' := by
  induction h generalizing l'' with
  | nil => exact h'
  | cons hab _ ih =>
    cases h' with
    | cons hbc h' =>
      exact .cons (htrans _ List.mem_cons_self _ _ hab hbc)
        (ih h' fun a ha => htrans a (List.mem_cons_of_mem _ ha))

theorem Reordered.symm : n.Reordered n' → n'.Reordered n := by
  induction n using Node.induct generalizing n' with
  | h n children loops afterLoops =>
    intro h
    have loop {l l' : Loop} (ih : ∀ {n'}, l.body.Reordered n' → n'.Reordered l.body)
        (h : ReorderedLoop l l') : ReorderedLoop l' l := by
      cases h with
      | mk body => exact .mk (ih body)
    obtain ⟨order, hall, hperm⟩ := h.children_after
    have hall' : List.Forall₂ ReorderedChild order n.children := by
      refine forall₂_symm hall fun c hc c' hcc => ?_
      have ih : ∀ {m}, c.2.Reordered m → m.Reordered c.2 := children c hc
      cases hcc with
      | mk node => exact .mk (ih node)
    have hloops := forall₂_symm h.loops fun l hl _ => loop (loops l hl)
    have hafter := forall₂_symm h.afterLoops fun l hl _ => loop (afterLoops l hl)
    cases h
    exact .mk hloops hperm.symm hall' hafter

theorem Reordered.trans : n.Reordered n' → n'.Reordered n'' → n.Reordered n'' := by
  induction n using Node.induct generalizing n' n'' with
  | h n children loops afterLoops =>
    intro h h'
    have loop {l l' l'' : Loop}
        (ih : ∀ {n' n''}, l.body.Reordered n' → n'.Reordered n'' → l.body.Reordered n'')
        (h : ReorderedLoop l l') (h' : ReorderedLoop l' l'') : ReorderedLoop l l'' := by
      cases h with
      | mk body =>
        cases h' with
        | mk body' => exact .mk (ih body body')
    obtain ⟨order, hperm, hall⟩ := h.children
    obtain ⟨order', hperm', hall'⟩ := h'.children
    -- the second order is brought before the first children are reordered
    obtain ⟨order₁, hall₁, hperm₁⟩ := h.children_after
    obtain ⟨order₂, hperm₂, hall₂⟩ : ∃ order₂, n.children.Perm order₂ ∧
        List.Forall₂ ReorderedChild order₂ order' := by
      have hcomp : Relation.Comp (List.Forall₂ ReorderedChild) List.Perm n.children order' :=
        ⟨order₁, hall₁, hperm₁.trans hperm'⟩
      rwa [List.forall₂_comp_perm_eq_perm_comp_forall₂] at hcomp
    have hchildren : List.Forall₂ ReorderedChild order₂ n''.children := by
      refine forall₂_trans hall₂ hall' fun c hc c' c'' hcc hcc' => ?_
      have ih : ∀ {m m'}, c.2.Reordered m → m.Reordered m' → c.2.Reordered m' :=
        children c (hperm₂.mem_iff.mpr hc)
      cases hcc with
      | mk node =>
        cases hcc' with
        | mk node' => exact .mk (ih node node')
    have hloops := forall₂_trans h.loops h'.loops fun l hl _ _ => loop (loops l hl)
    have hafter := forall₂_trans h.afterLoops h'.afterLoops fun l hl _ _ => loop (afterLoops l hl)
    cases h
    cases h'
    exact .mk hloops hperm₂ hchildren hafter

theorem ReorderedLoop.trans {l l' l'' : Loop} (h : ReorderedLoop l l') (h' : ReorderedLoop l' l'') :
    ReorderedLoop l l'' := by
  cases h with
  | mk body =>
    cases h' with
    | mk body' => exact .mk (body.trans body')

theorem Reordered.refl (n : Node) : n.Reordered n := by
  induction n using Node.induct with
  | h n children loops afterLoops =>
    have loop {l : Loop} (h : l.body.Reordered l.body) : ReorderedLoop l l := by
      cases l
      exact .mk h
    cases n
    refine .mk (List.forall₂_same.mpr fun l hl => loop (loops l hl)) (.refl _)
      (List.forall₂_same.mpr fun c hc => ?_) (List.forall₂_same.mpr fun l hl => loop (afterLoops l hl))
    obtain ⟨name, m⟩ := c
    exact .mk (children (name, m) hc)

theorem ReorderedLoop.refl (l : Loop) : ReorderedLoop l l := by
  cases l
  exact .mk (.refl _)

/-- The loop is one that waits for an array to be captured, here or further in. -/
inductive Waits (l : Loop) : Node → Prop
  | here {n : Node} (loop : l ∈ n.afterLoops) : Waits l n
  | body {n : Node} {l' : Loop} (loop : l' ∈ n.allLoops) (waits : Waits l l'.body) : Waits l n
  | child {n : Node} {c : String × Node} (child : c ∈ n.children) (waits : Waits l c.2) : Waits l n

/-- The loop is one that waits, with its body in some order. -/
def WaitsSo (n : Node) (l : Loop) : Prop := ∃ l', Waits l' n ∧ ReorderedLoop l' l

/-! ## 4. Parts -/

/-- A part of a node, with the bodies of loops in another order. -/
inductive ReorderedPart : Part → Part → Prop
  | slot {s : Nat} : ReorderedPart (.slot s) (.slot s)
  | test {t : Test} : ReorderedPart (.test t) (.test t)
  | loop {l l' : Loop} (loop : ReorderedLoop l l') : ReorderedPart (.loop l) (.loop l')
  | afterTest {t : Test} : ReorderedPart (.afterTest t) (.afterTest t)
  | afterLoop {l l' : Loop} (loop : ReorderedLoop l l') :
    ReorderedPart (.afterLoop l) (.afterLoop l')

theorem ReorderedPart.works {part part' : Part} (h : ReorderedPart part part')
    (hw : part'.Works) : part.Works := by
  rintro s rfl
  cases h
  exact hw s rfl

theorem mem_of_forall₂ {α β : Type} {R : α → β → Prop} {l : List α} {l' : List β}
    (h : List.Forall₂ R l l') {b : β} (hb : b ∈ l') : ∃ a ∈ l, R a b := by
  induction h with
  | nil => cases hb
  | cons hab _ ih =>
    rcases List.mem_cons.mp hb with rfl | hb
    · exact ⟨_, List.mem_cons_self, hab⟩
    · obtain ⟨a, ha, hr⟩ := ih hb
      exact ⟨a, List.mem_cons_of_mem _ ha, hr⟩

/-- Each child comes from one of the same name. -/
theorem Reordered.mem_children (h : n.Reordered n') {c' : String × Node} (hc : c' ∈ n'.children) :
    ∃ c ∈ n.children, ReorderedChild c c' := by
  obtain ⟨order, hperm, hall⟩ := h.children
  obtain ⟨c, hm, hr⟩ := mem_of_forall₂ hall hc
  exact ⟨c, hperm.mem_iff.mpr hm, hr⟩

theorem Reordered.mem_own (h : n.Reordered n') {part' : Part} (hp : part' ∈ n'.own) :
    ∃ part ∈ n.own, ReorderedPart part part' := by
  cases part' with
  | slot s =>
    rw [Node.mem_own, h.slot] at hp
    exact ⟨.slot s, Node.mem_own.mpr hp, .slot⟩
  | test t =>
    rw [Node.mem_own, h.tests] at hp
    exact ⟨.test t, Node.mem_own.mpr hp, .test⟩
  | afterTest t =>
    rw [Node.mem_own, h.afterTests] at hp
    exact ⟨.afterTest t, Node.mem_own.mpr hp, .afterTest⟩
  | loop l' =>
    obtain ⟨l, hl, hr⟩ := mem_of_forall₂ h.loops (Node.mem_own.mp hp)
    exact ⟨.loop l, Node.mem_own.mpr hl, .loop hr⟩
  | afterLoop l' =>
    obtain ⟨l, hl, hr⟩ := mem_of_forall₂ h.afterLoops (Node.mem_own.mp hp)
    exact ⟨.afterLoop l, Node.mem_own.mpr hl, .afterLoop hr⟩

/-- **Each part comes from one at the same path.** -/
theorem Reordered.mem_parts {q : Path} {part' : Part} : n.Reordered n' →
    (q, part') ∈ n'.parts → ∃ part, (q, part) ∈ n.parts ∧ ReorderedPart part part' := by
  induction n using Node.induct generalizing n' q with
  | h n children _ _ =>
    intro h hmem
    rcases Node.mem_parts.mp hmem with ⟨rfl, hp⟩ | ⟨c', hc', r, rfl, hp⟩
    · obtain ⟨part, hm, hr⟩ := h.mem_own hp
      exact ⟨part, mem_parts_of_own hm, hr⟩
    · obtain ⟨c, hc, hcc⟩ := h.mem_children hc'
      obtain ⟨part, hm, hr⟩ := children c hc hcc.node hp
      exact ⟨part, hcc.name ▸ mem_parts_of_child hc hm, hr⟩

theorem Reordered.places_iff {s : Nat} {path : Path} (h : n.Reordered n') :
    (s, path) ∈ n'.places ↔ (s, path) ∈ n.places := by
  have sub {m m' : Node} (h : m.Reordered m') (hp : (s, path) ∈ m'.places) :
      (s, path) ∈ m.places := by
    obtain ⟨part, hm, hr⟩ := h.mem_parts (mem_places_iff.mp hp)
    cases hr
    exact mem_places_iff.mpr hm
  exact ⟨sub h, sub h.symm⟩

/-- No loop is gained or lost. -/
theorem Reordered.mem_loopBuckets {b : Nat} (h : n.Reordered n') :
    b ∈ n'.loopBuckets ↔ b ∈ n.loopBuckets := by
  have sub {m : Node} : ∀ {m' : Node}, m.Reordered m' → b ∈ m'.loopBuckets → b ∈ m.loopBuckets := by
    induction m using Node.induct with
    | h m children _ _ =>
      intro m' h hb
      rcases Node.mem_loopBuckets.mp hb with ⟨l', hl', rfl⟩ | ⟨c', hc', hb⟩
      · obtain ⟨l, hl, hr⟩ := mem_of_forall₂ h.allLoops hl'
        exact Node.mem_loopBuckets.mpr (.inl ⟨l, hl, (ReorderedLoop.bucket hr).symm⟩)
      · obtain ⟨c, hc, hcc⟩ := h.mem_children hc'
        exact Node.mem_loopBuckets.mpr (.inr ⟨c, hc, children c hc hcc.node hb⟩)
  exact ⟨sub h, sub h.symm⟩

theorem flatMap_perm_of_forall₂ {α β : Type} {R : α → α → Prop} {f : α → List β} {l l' : List α}
    (h : List.Forall₂ R l l') (hf : ∀ a ∈ l, ∀ b, R a b → (f a).Perm (f b)) :
    (l.flatMap f).Perm (l'.flatMap f) := by
  induction h with
  | nil => exact .refl _
  | cons hab _ ih =>
    rw [List.flatMap_cons, List.flatMap_cons]
    exact (hf _ List.mem_cons_self _ hab).append
      (ih fun a ha => hf a (List.mem_cons_of_mem _ ha))

/-- No slot is gained or lost. -/
theorem Reordered.slots_perm : n.Reordered n' → n.slots.Perm n'.slots := by
  induction n using Node.induct generalizing n' with
  | h n children loops afterLoops =>
    intro h
    obtain ⟨order, hperm, hall⟩ := h.children
    rw [slots_eq, slots_eq n', h.slot]
    refine (List.Perm.append_left _ ?_).append ?_ |>.append ?_
    · exact flatMap_perm_of_forall₂ h.loops fun l hl _ hr => loops l hl hr.body
    · refine (hperm.flatMap_right _).trans (flatMap_perm_of_forall₂ hall fun c hc _ hr => ?_)
      exact children c (hperm.mem_iff.mpr hc) hr.node
    · exact flatMap_perm_of_forall₂ h.afterLoops fun l hl _ hr => afterLoops l hl hr.body

theorem map_bucket_of_forall₂ {l l' : List Loop} (h : List.Forall₂ ReorderedLoop l l') :
    l'.map (·.bucket) = l.map (·.bucket) := by
  rw [← List.forall₂_eq_eq_eq, List.forall₂_map_left_iff, List.forall₂_map_right_iff]
  exact List.Forall₂.flip (h.imp fun _ _ hr => hr.bucket)

/-- No bucket is gained or lost. -/
theorem Reordered.buckets_perm : n.Reordered n' → n.buckets.Perm n'.buckets := by
  induction n using Node.induct generalizing n' with
  | h n children _ _ =>
    intro h
    obtain ⟨order, hperm, hall⟩ := h.children
    rw [buckets_eq, buckets_eq n', h.allTests, map_bucket_of_forall₂ h.allLoops]
    refine List.Perm.append_left _ ?_
    refine (hperm.flatMap_right _).trans (flatMap_perm_of_forall₂ hall fun c hc _ hr => ?_)
    exact children c (hperm.mem_iff.mpr hc) hr.node

/-- **In another order a node stays tidy.** -/
theorem Tidy.reordered : n.Tidy → n.Reordered n' → n'.Tidy := by
  induction n using Node.induct generalizing n' with
  | h n children loops afterLoops =>
    intro ht h
    obtain ⟨order, hperm, hall⟩ := h.children
    have hnames : n'.children.map (·.1) = order.map (·.1) := by
      rw [← List.forall₂_eq_eq_eq, List.forall₂_map_left_iff, List.forall₂_map_right_iff]
      exact List.Forall₂.flip (hall.imp fun _ _ hr => hr.name)
    have body {l : Loop} (hl : l ∈ n.allLoops) : ∀ {n'}, l.body.Tidy → l.body.Reordered n' →
        n'.Tidy := by
      rcases List.mem_append.mp hl with hl | hl
      · exact loops l hl
      · exact afterLoops l hl
    refine .mk ?_ (h.slots_perm.nodup_iff.mp ht.slots) (fun l' hl' s => ?_) (fun l' hl' => ?_)
      fun c' hc' => ?_
    · rw [hnames]
      exact (hperm.map _).nodup_iff.mp ht.names
    · obtain ⟨l, hl, hr⟩ := mem_of_forall₂ h.allLoops hl'
      rw [hr.locals, ht.locals hl]
      exact exists_congr fun _ => hr.body.places_iff.symm
    · obtain ⟨l, hl, hr⟩ := mem_of_forall₂ h.allLoops hl'
      exact body hl (ht.body hl) hr.body
    · obtain ⟨c, hc, hr⟩ := h.mem_children hc'
      exact children c hc (ht.child hc) hr.node

/-- In another order the same loops wait. -/
theorem Waits.of_reordered {l : Loop} (h : Waits l n') :
    ∀ {n : Node}, n.Reordered n' → ∃ l', Waits l' n ∧ ReorderedLoop l' l := by
  induction h with
  | here loop =>
    intro n hr
    obtain ⟨l', hl', hll⟩ := mem_of_forall₂ hr.afterLoops loop
    exact ⟨l', .here hl', hll⟩
  | body loop _ ih =>
    intro n hr
    obtain ⟨l', hl', hll⟩ := mem_of_forall₂ hr.allLoops loop
    obtain ⟨l₂, hw, hr₂⟩ := ih (ReorderedLoop.body hll)
    exact ⟨l₂, .body hl' hw, hr₂⟩
  | child child _ ih =>
    intro n hr
    obtain ⟨c, hc, hcc⟩ := hr.mem_children child
    obtain ⟨l₂, hw, hr₂⟩ := ih hcc.node
    exact ⟨l₂, .child hc hw, hr₂⟩

theorem Reordered.waitsSo_iff {l : Loop} (h : n.Reordered n') : n'.WaitsSo l ↔ n.WaitsSo l := by
  have sub {m m' : Node} (h : m.Reordered m') : m'.WaitsSo l → m.WaitsSo l := by
    rintro ⟨l', hw, hr⟩
    obtain ⟨l₂, hw₂, hr₂⟩ := hw.of_reordered h
    exact ⟨l₂, hw₂, hr₂.trans hr⟩
  exact ⟨sub h, sub h.symm⟩

end Node

/-! ## 5. Plans -/

/-- **A part in another order is built of the same leaf.** -/
theorem Part.Built.reordered {kit : Toolkit} {Γ : Homes} {q : Path} {part part' : Part} {b : Nat}
    {o : Outline} (h : part.Built kit Γ q b o) :
    Node.ReorderedPart part part' → part'.Built kit Γ q b o := by
  -- what is built of the leaves of a body is so in another order
  have body {Γ : Homes} {var : Variable} {node node' : Node} {leaves : List (Nat × Outline)}
      {origin : Path × Part → Nat × Outline}
      (mem : ∀ p ∈ node.parts, p.2.Works → origin p ∈ leaves)
      (covers : node.buckets.Perm (leaves.map (·.1)))
      (ih : ∀ p ∈ node.parts, p.2.Works → ∀ {part'}, Node.ReorderedPart p.2 part' →
        part'.Built kit ((var, node.places) :: Γ) p.1 (origin p).1 (origin p).2)
      (hr : node.Reordered node') : node'.BuiltOf kit ((var, node'.places) :: Γ) leaves := by
    refine ⟨fun p' hp' hw => ?_, hr.buckets_perm.symm.trans covers⟩
    obtain ⟨part, hp, hpart⟩ := hr.mem_parts hp'
    have hw' := hpart.works hw
    refine ⟨_, mem _ hp hw', (ih _ hp hw' hpart).mono (.cons ⟨rfl, fun p hp => ?_⟩ (Grown.refl _))⟩
    exact hr.places_iff.mpr hp
  induction h generalizing part' with
  | test isTest single serves =>
    intro hr
    cases hr
    exact .test isTest single serves
  | afterTest isTest several serves =>
    intro hr
    cases hr
    exact .afterTest isTest several serves
  | loop inline origin mem _ covers ih =>
    intro hr
    cases hr with
    | loop hr =>
      cases hr with
      | mk hr =>
        have hbody := body mem covers (fun p hp hw => ih p hp hw) hr
        obtain ⟨origin', mem', built'⟩ := hbody.origin
        exact .loop inline origin' mem' built' hbody.covers
  | afterLoop late home origin mem _ covers ih =>
    intro hr
    cases hr with
    | afterLoop hr =>
      cases hr with
      | mk hr =>
        have hbody := body mem covers (fun p hp hw => ih p hp hw) hr
        obtain ⟨origin', mem', built'⟩ := hbody.origin
        exact .afterLoop late home origin' mem' built' hbody.covers

namespace Plan

variable {p p' p'' : Plan}

theorem Reordered.refl (p : Plan) : p.Reordered p := ⟨.refl _, rfl, rfl, rfl⟩

theorem Reordered.symm (h : p.Reordered p') : p'.Reordered p :=
  ⟨h.root.symm, h.tree.symm, h.buckets.symm, h.slots.symm⟩

theorem Reordered.trans (h : p.Reordered p') (h' : p'.Reordered p'') : p.Reordered p'' :=
  ⟨h.root.trans h'.root, h'.tree.trans h.tree, h'.buckets.trans h.buckets, h'.slots.trans h.slots⟩

/-- **In another order a plan is one that the same expressions have been compiled into.** -/
theorem Compiled.reordered {kit : Toolkit} {es : List Expr} (h : p.Compiled kit es)
    (hr : p.Reordered p') : p'.Compiled kit es where
  ne := h.ne
  accepted := hr.tree ▸ h.accepted
  nodes := hr.tree ▸ h.nodes
  buckets := hr.buckets ▸ h.buckets
  tidy := h.tidy.reordered hr.root
  built := by
    refine ⟨fun q hq hw => ?_, hr.root.buckets_perm.symm.trans h.built.covers⟩
    obtain ⟨part, hm, hpart⟩ := hr.root.mem_parts hq
    obtain ⟨l, hl, hb⟩ := h.built.built _ hm (hpart.works hw)
    refine ⟨l, hl, (hb.reordered hpart).mono (.cons ⟨rfl, fun p hp => ?_⟩ (Grown.refl _))⟩
    exact hr.root.places_iff.mpr hp
  slots s := by rw [hr.slots, ← h.slots, hr.root.slots_perm.mem_iff]

/-- **In whatever order its children are gone through**, a plan for expressions is one that they
    have been compiled into. -/
theorem compiled_of_reordered {kit : Toolkit} {es : List Expr} (h : compileAll kit es = .ok p)
    (hr : p.Reordered p') : p'.Compiled kit es := (compiled_of_compileAll h).reordered hr

end Plan

end Sift
