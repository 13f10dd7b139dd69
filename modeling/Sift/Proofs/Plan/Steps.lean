import Sift.Proofs.Plan.Drafts

/-!
# What compiling adds

Each step of compiling that succeeds keeps the draft good and adds what it should: an operand gets
at the value that it is of (`Operand.Serves`), a test or a loop is added as a part that is built of
a leaf, and an expression as the leaves of its outline (`yields_formula`).
-/

namespace Sift

/-! ## 1. Slots -/

/-- The node with a slot. -/
def Node.fill (s : Nat) (n : Node) : Node := { n with slot := some s }

/-- The operand has the value of the expression. -/
structure Operand.Serves (kit : Toolkit) (Γ : Homes) (active : Option Path) (o : Operand)
    (e : Expr) : Prop where
  slots : OfFields Γ active e.free o.slots
  value : ∀ V captured v, Supplies Γ active e.free V captured v →
    o.value captured v = e.valueBy kit V

theorem Operand.Serves.grown {kit : Toolkit} {Γ Γ' : Homes} {active : Option Path} {o : Operand}
    {e : Expr} (hs : o.Serves kit Γ active e) (h : Grown Γ Γ') : o.Serves kit Γ' active e :=
  ⟨hs.slots.grown h, fun V captured v hv => hs.value V captured v (hv.grown h)⟩

namespace Plan

variable {kit : Toolkit} {kept : List Nat} {d d' d'' : Draft} {active : Option Path}

/-- A step that only gives slots to fields. -/
structure Draft.Gives (kit : Toolkit) (kept : List Nat) (d d' : Draft) : Prop where
  good : d'.Good kept
  adds : d.Adds kit [] d'
  buckets : d'.buckets = d.buckets

theorem Draft.Gives.refl (h : d.Good kept) : d.Gives kit kept d := ⟨h, .refl h.ne, rfl⟩

theorem Draft.Gives.trans (h : d.Gives kit kept d') (h' : d'.Gives kit kept d'') :
    d.Gives kit kept d'' :=
  ⟨h'.good, h.adds.trans h'.adds, h'.buckets.trans h.buckets⟩

theorem yields_scopeOf {var : Variable} {Q : Nat → Draft → Prop}
    (h : ∀ i, d.scopes.findIdx? (·.var = var) = some i → Q i d) : Yields d (scopeOf var) Q := by
  refine (yields_get (Q := fun r d' => d = r ∧ d = d') ⟨rfl, rfl⟩).bind fun r d' hr => ?_
  obtain ⟨rfl, rfl⟩ := hr
  split
  · next i hi => exact yields_pure (h i hi)
  · exact yields_throw

/-- A slot has been given to a field if it has in the scope where its variable is bound. -/
theorem home_of_scope {f : Field} {s : Nat} : ∀ {scopes scopes' : List Scope} {i : Nat},
    List.Forall₂ (fun sc sc' : Scope => sc'.var = sc.var) scopes scopes' →
    scopes.findIdx? (·.var = f.root) = some i → ∀ {sc' : Scope}, scopes'[i]? = some sc' →
    (s, f.path) ∈ sc'.node.places →
    Home (scopes'.map fun sc => (sc.var, sc.node.places)) f s := by
  intro scopes scopes' i hv
  induction hv generalizing i with
  | nil =>
    intro hi
    cases hi
  | @cons sc sc₁ rest rest' hvar _ ih =>
    intro hi sc' hs hp
    rw [List.findIdx?_cons] at hi
    rw [List.map_cons, Home, hvar]
    split at hi
    · next he =>
      cases hi
      cases hs
      rw [if_pos (of_decide_eq_true he).symm]
      exact hp
    · next he =>
      obtain ⟨j, hj, rfl⟩ := Option.map_eq_some_iff.mp hi
      rw [if_neg fun h => he (decide_eq_true h.symm)]
      exact ih hj hs hp

/-- The slot that is given next may be kept for a field. -/
theorem Draft.Good.fresh (h : d.Good kept) :
    ({ d with slots := d.slots + 1 } : Draft).Good (d.slots :: kept) where
  ne := h.ne
  named := h.named
  slots := List.nodup_cons.mpr ⟨fun hm => absurd ((h.given _).mp hm) (Nat.lt_irrefl _), h.slots⟩
  given s := by
    rw [List.cons_append, List.mem_cons]
    exact (or_congr_right (h.given s)).trans (or_comm.trans Nat.lt_succ_iff_lt_or_eq.symm)
  locals := h.locals
  loops := h.loops

/-- **A field is given a slot**, if it has none yet. -/
theorem yields_slotFor (kit : Toolkit) {i : Nat} {path : Path} {sc : Scope} (h : d.Good kept)
    (hi : d.scopes[i]? = some sc) : Yields d (slotFor i path) fun s d' =>
      d.Gives kit kept d' ∧ ∃ sc', d'.scopes[i]? = some sc' ∧ (s, path) ∈ sc'.node.places := by
  unfold slotFor
  refine (yields_get (Q := fun r d' => d = r ∧ d = d') ⟨rfl, rfl⟩).bind fun r d' hr => ?_
  obtain ⟨rfl, rfl⟩ := hr
  simp only [hi, Option.bind_some]
  split
  · next s hs =>
    refine yields_pure ⟨.refl h, sc, hi, ?_⟩
    obtain ⟨n, hn, hs⟩ := Option.bind_eq_some_iff.mp hs
    refine Node.mem_places_iff.mpr (Node.mem_parts_of_get (Node.mem_own.mpr ?_))
    rw [Node.get, hn]
    exact hs
  · next hs =>
    have hnone : (sc.node.get path).slot = none := by
      rw [Node.get]
      cases hn : sc.node.at? path with
      | none => rfl
      | some n =>
        rw [hn] at hs
        exact hs
    refine (yields_set (Q := fun _ d' => d' = { d with slots := d.slots + 1 }) rfl).bind
      fun _ d₁ h₁ => ?_
    subst h₁
    refine (yields_modify (Q := fun _ d' => d' = _) rfl).bind fun _ d₂ h₂ => yields_pure ?_
    have hlt : i < d.scopes.length := (List.getElem?_eq_some_iff.mp hi).1
    obtain ⟨front, sc₁, rest, hscopes, hlen, hmod⟩ := List.exists_of_modify (fun s : Scope =>
      { s with node := s.node.modifyAt (Node.fill d.slots) path, slots := s.slots ++ [d.slots] }) hlt
    have hsc : sc₁ = sc := by
      rw [hscopes, ← hlen, List.getElem?_append_right (Nat.le_refl _), Nat.sub_self] at hi
      exact Option.some.inj hi
    subst hsc hlen
    have hgain : sc₁.Gains path (.slot d.slots) { sc₁ with
        node := sc₁.node.modifyAt (Node.fill d.slots) path, slots := sc₁.slots ++ [d.slots] } := by
      refine ⟨rfl, Node.named_modifyAt (f := Node.fill d.slots) fun _ => rfl,
        Node.parts_modifyAt (f := Node.fill d.slots) (fun _ => rfl) path _ (Node.own_slot hnone),
        fun s => ?_⟩
      rw [List.mem_append, List.mem_singleton]
      exact or_congr_right ⟨fun h => by rw [h], fun h => by cases h; rfl⟩
    have hscopes₂ : d₂.scopes = front ++ { sc₁ with
        node := sc₁.node.modifyAt (Node.fill d.slots) path
        slots := sc₁.slots ++ [d.slots] } :: rest := by
      rw [h₂]
      exact hmod
    have hfresh : ({ d with slots := d.slots + 1 } : Draft).Good
        ((Part.slot d.slots).slots ++ kept) := h.fresh
    have hgood : d₂.Good kept := hfresh.gain hscopes hscopes₂ (by rw [h₂]) hgain
      fun _ h => by cases h
    refine ⟨⟨hgood, Draft.adds_nil h.ne ?_, by rw [h₂]⟩, _, ?_,
      Node.mem_places_iff.mpr (hgain.mem_parts.mpr (.inl rfl))⟩
    · rw [hscopes, hscopes₂]
      exact List.rel_append (List.forall₂_same.mpr fun sc _ => .refl sc)
        (.cons (.of_gains hgain rfl fun hw => hw _ rfl)
          (List.forall₂_same.mpr fun sc _ => .refl sc))
    · rw [hscopes₂, List.getElem?_append_right (Nat.le_refl _), Nat.sub_self]
      rfl

/-! ## 2. Operands -/

theorem Draft.Adds.vars {leaves : List (Nat × Outline)} (h : d.Adds kit leaves d') :
    List.Forall₂ (fun sc sc' : Scope => sc'.var = sc.var) d.scopes d'.scopes :=
  h.scopes.imp fun _ _ ⟨_, _, hg⟩ => hg.var

/-- A field is given a slot where its variable is bound. -/
theorem yields_slotOf (kit : Toolkit) {f : Field} {i : Nat} (h : d.Good kept)
    (hi : d.scopes.findIdx? (·.var = f.root) = some i) :
    Yields d (slotFor i f.path) fun s d' => d.Gives kit kept d' ∧ Home d'.homes f s := by
  obtain ⟨hlt, -⟩ := List.findIdx?_eq_some_iff_getElem.mp hi
  refine (yields_slotFor kit h (List.getElem?_eq_getElem hlt)).mono fun s d' hs => ?_
  obtain ⟨hgives, sc', hsc, hp⟩ := hs
  exact ⟨hgives, home_of_scope hgives.adds.vars hi hsc hp⟩

/-- Variables stay bound where they are. -/
theorem findIdx?_of_vars {scopes scopes' : List Scope} {var : Variable}
    (h : List.Forall₂ (fun sc sc' : Scope => sc'.var = sc.var) scopes scopes') :
    scopes'.findIdx? (·.var = var) = scopes.findIdx? (·.var = var) := by
  induction h with
  | nil => rfl
  | cons hv _ ih => rw [List.findIdx?_cons, List.findIdx?_cons, hv, ih]

/-- The variable of the innermost scope is bound nowhere further in. -/
theorem scopeOf_eq_zero_iff (hne : d.scopes ≠ []) {var : Variable} {i : Nat}
    (hi : d.scopes.findIdx? (·.var = var) = some i) : i = 0 ↔ var = d.homes.cur := by
  cases hs : d.scopes with
  | nil => exact absurd hs hne
  | cons sc rest =>
    have hcur : d.homes.cur = sc.var := by
      rw [Draft.homes, hs]
      rfl
    rw [hs, List.findIdx?_cons] at hi
    rw [hcur]
    split at hi
    · next he =>
      cases hi
      exact iff_of_true rfl (of_decide_eq_true he).symm
    · next he =>
      obtain ⟨j, -, rfl⟩ := Option.map_eq_some_iff.mp hi
      exact iff_of_false (Nat.succ_ne_zero j) fun h => he (decide_eq_true h.symm)

theorem yields_fieldOperand (h : d.Good kept) (f : Field) :
    Yields d (fieldOperand active f) fun o d' =>
      d.Gives kit kept d' ∧ o.Serves kit d'.homes active (.field f) := by
  refine Yields.bind (yields_scopeOf (Q := fun i d' => d = d' ∧
    d.scopes.findIdx? (·.var = f.root) = some i) fun i hi => ⟨rfl, hi⟩) fun i d₁ h₁ => ?_
  obtain ⟨rfl, hi⟩ := h₁
  have hzero := scopeOf_eq_zero_iff h.ne hi
  split
  · next hc =>
    have ha : f.Active d.homes active := ⟨hzero.mp hc.1, hc.2⟩
    refine yields_pure ⟨.refl h, nofun, fun V captured v hv => ?_⟩
    exact (hv.here f (List.mem_singleton.mpr rfl) ha).symm
  · next hc =>
    refine (yields_slotOf kit h hi).bind fun s d' hs => yields_pure ?_
    obtain ⟨hgives, hhome⟩ := hs
    have ha : ¬ f.Active d'.homes active := fun ha => by
      rw [Field.Active.grown hgives.adds.grown] at ha
      exact hc ⟨hzero.mpr ha.1, ha.2⟩
    refine ⟨hgives, fun s' hm => ⟨f, List.mem_singleton.mpr rfl, ha, ?_⟩, fun V captured v hv =>
      (hv.away f (List.mem_singleton.mpr rfl) ha s hhome).symm⟩
    rw [List.mem_singleton.mp hm]
    exact hhome

/-- Operands serve as the expressions of a list. -/
structure OperandsServe (kit : Toolkit) (Γ : Homes) (active : Option Path) (os : List Operand)
    (es : List Expr) : Prop where
  slots : OfFields Γ active (Expr.freeOfAll es) (Operand.slotsOfAll os)
  values : ∀ V captured v, Supplies Γ active (Expr.freeOfAll es) V captured v →
    Operand.valuesOfAll captured v os = Expr.valuesBy kit V es

mutual

/-- **An operand serves as its expression.** -/
theorem yields_operand : ∀ {d : Draft}, d.Good kept → ∀ e : Expr,
    Yields d (operand kit active e) fun o d' => d.Gives kit kept d' ∧ o.Serves kit d'.homes active e
  | _, h, .truth b => by
    rw [operand]
    exact yields_pure ⟨.refl h, nofun, fun _ _ _ _ => rfl⟩
  | _, h, .value v => by
    rw [operand]
    exact yields_pure ⟨.refl h, nofun, fun _ _ _ _ => rfl⟩
  | _, h, .field f => by
    rw [operand]
    exact yields_fieldOperand h f
  | _, h, .func f params => by
    rw [operand]
    split
    · exact Yields.bind (Q := fun _ _ => False) yields_throw fun _ _ => False.elim
    · refine (yields_operands h params).bind fun os d' hos => yields_pure ⟨hos.1, hos.2.slots, ?_⟩
      intro V captured v hv
      rw [Operand.value, Expr.valueBy, hos.2.values V captured v hv]
  | _, _, .not _ | _, _, .and _ | _, _, .or _ | _, _, .loop .. | _, _, .present _
  | _, _, .absent _ | _, _, .relation .. | _, _, .like .. => by
    rw [operand]
    exact yields_throw

theorem yields_operands : ∀ {d : Draft}, d.Good kept → ∀ es : List Expr,
    Yields d (operands kit active es) fun os d' =>
      d.Gives kit kept d' ∧ OperandsServe kit d'.homes active os es
  | _, h, [] => by
    rw [operands]
    exact yields_pure ⟨.refl h, nofun, fun _ _ _ _ => rfl⟩
  | _, h, e :: rest => by
    rw [operands]
    refine (yields_operand h e).bind fun o d₁ ho => ?_
    refine (yields_operands ho.1.good rest).bind fun os d₂ hos => yields_pure ?_
    have hfirst := ho.2.grown hos.1.adds.grown
    refine ⟨ho.1.trans hos.1, OfFields.append hfirst.slots hos.2.slots, fun V captured v hv => ?_⟩
    rw [Operand.valuesOfAll, Expr.valuesBy,
      hfirst.value V captured v (hv.of_subset fun _ => List.mem_append_left _),
      hos.2.values V captured v (hv.of_subset fun _ => List.mem_append_right _)]

end

/-! ## 3. Tests -/

/-- A step that adds an outline. -/
structure Draft.Becomes (kit : Toolkit) (kept : List Nat) (d : Draft) (o : Outline) (d' : Draft) :
    Prop where
  good : d'.Good kept
  adds : d.Adds kit (o.leaves d.buckets) d'
  buckets : d'.buckets = d.buckets + o.size

theorem yields_localPaths (hne : d.scopes ≠ []) : ∀ (fields : List Field) (found : List Path),
    Yields d (localPaths fields found) fun paths d' =>
      d = d' ∧ paths = ownPaths d.homes.cur fields found
  | [], found => yields_pure ⟨rfl, rfl⟩
  | f :: rest, found => by
    rw [localPaths]
    refine Yields.bind (yields_scopeOf (Q := fun i d' => d = d' ∧
      d.scopes.findIdx? (·.var = f.root) = some i) fun i hi => ⟨rfl, hi⟩) fun i d₁ h₁ => ?_
    obtain ⟨rfl, hi⟩ := h₁
    have hown := and_congr_left' (c := f.path ∉ found) (scopeOf_eq_zero_iff hne hi)
    rw [ownPaths]
    split
    · next hc =>
      rw [if_pos (hown.mp hc)]
      exact yields_localPaths hne rest _
    · next hc =>
      rw [if_neg (mt hown.mpr hc)]
      exact yields_localPaths hne rest _

/-- **A part that is built of a leaf is added to the innermost scope.** -/
theorem yields_modifyNode {path : Path} {f : Node → Node} {part : Part} {b : Nat} {o : Outline}
    (hown : ∀ n, (f n).own.Perm (part :: n.own)) (hc : ∀ n, (f n).children = n.children)
    (h : d.Good (part.slots ++ kept)) (ht : part.Tidy) (hb : part.Built kit d.homes path b o) :
    Yields d (modifyNode path f) fun _ d' =>
      d'.Good kept ∧ d.Adds kit [(b, o)] d' ∧ d'.buckets = d.buckets := by
  cases hs : d.scopes with
  | nil => exact absurd hs h.ne
  | cons sc rest =>
    refine yields_modify ?_
    have hgain : sc.Gains path part { sc with node := sc.node.modifyAt f path } :=
      ⟨rfl, Node.named_modifyAt hc, Node.parts_modifyAt hc path _ (hown _), fun s =>
        ⟨.inl, fun h => h.resolve_right (hb.works s)⟩⟩
    have hscopes : (d.scopes.modify 0 fun s => { s with node := s.node.modifyAt f path }) =
        { sc with node := sc.node.modifyAt f path } :: rest := by
      rw [hs]
      rfl
    rw [hscopes]
    have hgrows {new : Path × Part → Prop} (hn : new (path, part)) :
        sc.Grows new [b] { sc with node := sc.node.modifyAt f path } :=
      .of_gains hgain (by rw [hb.bucket, Option.toList_some]) fun _ => hn
    have hgrown : Grown d.homes (Draft.homes ⟨d.buckets, d.slots,
        { sc with node := sc.node.modifyAt f path } :: rest⟩) := by
      rw [Draft.homes, hs]
      refine .cons ⟨rfl, fun p hp => ?_⟩ (Grown.refl _)
      exact Node.mem_places_iff.mpr (hgain.mem_parts.mpr (.inr (Node.mem_places_iff.mp hp)))
    refine ⟨h.gain (l := []) hs rfl rfl hgain ht, ⟨hs, rfl, hgrows ?_,
      List.forall₂_same.mpr fun sc _ => .refl sc⟩, rfl⟩
    exact ⟨_, List.mem_singleton.mpr rfl, hb.mono hgrown⟩

/-- **A test is placed** where it sees its fields. -/
theorem yields_place {e : Expr} {check : Option Path → Compile Check} (h : d.Good kept)
    (htest : e.isTest = true)
    (hcheck : ∀ active, ∀ {d : Draft}, d.Good kept → Yields d (check active) fun ck d' =>
      d.Gives kit kept d' ∧ ck.Serves kit d'.homes active e) :
    Yields d (place e.fields check) fun f d' =>
      f = (Outline.test e).formula ∧ d.Becomes kit kept (.test e) d' := by
  refine yields_nextBucket (Q := fun b d' => b = d.buckets ∧
    d' = { d with buckets := d.buckets + 1 }) ⟨rfl, rfl⟩ |>.bind fun b d₁ h₁ => ?_
  obtain ⟨rfl, rfl⟩ := h₁
  have h₁ : ({ d with buckets := d.buckets + 1 } : Draft).Good kept := h.of_scopes rfl rfl
  refine (yields_localPaths h₁.ne e.fields []).bind fun paths d₂ h₂ => ?_
  obtain ⟨rfl, rfl⟩ := h₂
  -- wherever the test is placed, it is added to what the operands have added
  have placed {d₂ : Draft} {q : Path} {f : Node → Node} {part : Part}
      (hg : Draft.Gives kit kept { d with buckets := d.buckets + 1 } d₂)
      (hown : ∀ n, (f n).own.Perm (part :: n.own)) (hc : ∀ n, (f n).children = n.children)
      (hslots : part.slots = []) (ht : part.Tidy)
      (hb : part.Built kit d₂.homes q d.buckets (.test e)) :
      Yields d₂ (modifyNode q f) fun _ d' => d.Becomes kit kept (.test e) d' := by
    have hgood : d₂.Good (part.slots ++ kept) := by
      rw [hslots]
      exact hg.good
    refine (yields_modifyNode hown hc hgood ht hb).mono fun _ d' h' =>
      ⟨h'.1, ?_, h'.2.2.trans hg.buckets⟩
    exact (hg.adds.trans h'.2.1).of_scopes rfl
  split
  · next path hpath =>
    refine (hcheck (some path) h₁).bind fun ck d₂ h₂ => ?_
    refine Yields.bind (placed h₂.1 (fun n => Node.own_test _) (fun _ => rfl) rfl nofun
      (.test htest (h₂.1.adds.grown.cur ▸ hpath) h₂.2)) fun _ d' h' => yields_pure ⟨rfl, h'⟩
  · next hseveral =>
    refine (hcheck none h₁).bind fun ck d₂ h₂ => ?_
    have hb := Part.Built.afterTest (b := d.buckets) htest
      (fun path hp => hseveral path (h₂.1.adds.grown.cur ▸ hp)) h₂.2
    rw [h₂.1.adds.grown.cur] at hb
    refine Yields.bind (placed h₂.1 (fun n => Node.own_afterTest _) (fun _ => rfl) rfl nofun hb)
      fun _ d' h' => yields_pure ⟨rfl, h'⟩

/-- A check of one operand. -/
theorem serves_unary {Γ : Homes} {c : Operand → Check} {e whole : Expr} {o : Operand}
    (h : o.Serves kit Γ active e) (hfree : whole.free = e.free) (hslots : (c o).slots = o.slots)
    (hholds : ∀ V captured v, o.value captured v = e.valueBy kit V →
      (c o).holds kit.decimals captured v = whole.testBy kit V) :
    (c o).Serves kit Γ active whole := by
  refine ⟨?_, fun V captured v hv => hholds V captured v (h.value V captured v ?_)⟩
  · rw [hfree, hslots]
    exact h.slots
  · rwa [hfree] at hv

theorem yields_unaryTest {check : Operand → Check} {e : Expr} (whole : Expr) (h : d.Good kept)
    (htest : whole.isTest = true) (hfields : whole.fields = e.fields) (hfree : whole.free = e.free)
    (hslots : ∀ o, (check o).slots = o.slots)
    (hholds : ∀ o V captured v, o.value captured v = e.valueBy kit V →
      (check o).holds kit.decimals captured v = whole.testBy kit V) :
    Yields d (unaryTest kit check e) fun f d' =>
      f = (Outline.test whole).formula ∧ d.Becomes kit kept (.test whole) d' := by
  rw [unaryTest, ← hfields]
  exact yields_place h htest fun active _ h => yields_map ((yields_operand h e).mono
    fun o d' ho => ⟨ho.1, serves_unary ho.2 hfree (hslots o) (hholds o)⟩)

/-- An operand that stands in the place of a truth value. -/
theorem yields_isTrue {e : Expr} (h : d.Good kept) (htest : e.isTest = true)
    (hholds : ∀ V, e.testBy kit V = (e.valueBy kit V).isTrue) :
    Yields d (unaryTest kit .isTrue e) fun f d' =>
      f = (Outline.test e).formula ∧ d.Becomes kit kept (.test e) d' :=
  yields_unaryTest e h htest rfl rfl (fun _ => rfl) fun o V captured v hv => by
    rw [Check.holds, hholds, hv]

theorem yields_relationTest {r : Relation} {lhs rhs : Expr} (h : d.Good kept) :
    Yields d (relationTest kit r lhs rhs) fun f d' =>
      f = (Outline.test (.relation r lhs rhs)).formula ∧
        d.Becomes kit kept (.test (.relation r lhs rhs)) d' := by
  refine yields_place (e := .relation r lhs rhs) h rfl fun active d h => ?_
  refine (yields_operand h lhs).bind fun l d₁ hl => ?_
  refine (yields_operand hl.1.good rhs).bind fun o d₂ ho => yields_pure ?_
  have hfirst := hl.2.grown ho.1.adds.grown
  refine ⟨hl.1.trans ho.1, OfFields.append hfirst.slots ho.2.slots, fun V captured v hv => ?_⟩
  rw [Check.holds, Expr.testBy,
    hfirst.value V captured v (hv.of_subset fun _ => List.mem_append_left _),
    ho.2.value V captured v (hv.of_subset fun _ => List.mem_append_right _)]

theorem yields_patternOf (e : Expr) : Yields d (patternOf kit e) fun p d' =>
    d = d' ∧ e.pattern? kit = some p ∧ e.fields = [] ∧ e.free = [] := by
  unfold patternOf
  split
  · next s =>
    split
    · next p hp => exact yields_pure ⟨rfl, hp, rfl, rfl⟩
    · exact yields_throw
  · exact yields_throw

theorem yields_patternTest {lhs rhs : Expr} (h : d.Good kept) :
    Yields d (patternTest kit lhs rhs) fun f d' =>
      f = (Outline.test (.like lhs rhs)).formula ∧
        d.Becomes kit kept (.test (.like lhs rhs)) d' := by
  refine (yields_patternOf rhs).bind fun p d' hp => ?_
  obtain ⟨rfl, hp, hfields, hfree⟩ := hp
  have hlhs : lhs.fields = (Expr.like lhs rhs).fields := by
    rw [Expr.fields, hfields, List.append_nil]
  rw [hlhs]
  refine yields_place (e := .like lhs rhs) h rfl fun active _ h => yields_map
    ((yields_operand h lhs).mono fun o d' ho => ⟨ho.1, ?_⟩)
  refine serves_unary (c := (.matches · p)) ho.2 ?_ rfl fun V captured v hv => ?_
  · rw [Expr.free, hfree, List.append_nil]
  · rw [Check.holds, Expr.testBy, hp, hv]

/-! ## 4. Loops -/

/-- **The scope is the body of a loop** over the elements that `var` is bound to. -/
structure Scope.BodyOf (kit : Toolkit) (Γ : Homes) (var : Variable)
    (leaves : List (Nat × Outline)) (inner : Scope) : Prop where
  locals : ∀ s, s ∈ inner.slots ↔ ∃ path, (s, path) ∈ inner.node.places
  tidy : inner.node.Tidy
  built : inner.node.BuiltOf kit ((var, inner.node.places) :: Γ) leaves

/-- A scope may be opened. -/
theorem Draft.Good.open (h : d.Good kept) (var : Variable) :
    ({ d with scopes := ⟨var, .empty, []⟩ :: d.scopes } : Draft).Good kept where
  ne := nofun
  named sc hm := by
    rcases List.mem_cons.mp hm with rfl | hm
    · exact Node.named_empty
    · exact h.named sc hm
  slots := h.slots
  given := h.given
  locals sc hm s := by
    rcases List.mem_cons.mp hm with rfl | hm
    · exact ⟨nofun, nofun⟩
    · exact h.locals sc hm s
  loops sc hm p hp := by
    rcases List.mem_cons.mp hm with rfl | hm
    · cases hp
    · exact h.loops sc hm p hp

/-- When a scope is closed, its slots are kept. -/
theorem Draft.Good.close {inner : Scope} {outer : List Scope} (h : d.Good kept)
    (hs : d.scopes = inner :: outer) (hne : outer ≠ []) :
    ({ d with scopes := outer } : Draft).Good (inner.node.slots ++ kept) := by
  have hperm : (inner.node.slots ++ kept ++ outer.flatMap fun sc => sc.node.slots).Perm
      (kept ++ d.used) := by
    rw [Draft.used, hs, List.flatMap_cons, List.append_assoc]
    exact List.perm_append_comm_assoc _ _ _
  have mem {sc : Scope} (hm : sc ∈ outer) : sc ∈ d.scopes := by
    rw [hs]
    exact List.mem_cons_of_mem _ hm
  exact ⟨hne, fun sc hm => h.named sc (mem hm), hperm.nodup_iff.mpr h.slots,
    fun s => hperm.mem_iff.trans (h.given s), fun sc hm => h.locals sc (mem hm),
    fun sc hm => h.loops sc (mem hm)⟩

/-- **The body of a loop is compiled in a scope of its own.** -/
theorem yields_inScope {var : Variable} {o : Outline} {body : Compile Formula} (h : d.Good kept)
    (hbody : ∀ {d : Draft}, d.Good kept → Yields d body fun f d' =>
      f = o.formula ∧ d.Becomes kit kept o d') :
    Yields d (inScope var body) fun r d' => r.1 = o.formula ∧ d'.Good (r.2.node.slots ++ kept) ∧
      d.Adds kit [] d' ∧ d'.buckets = d.buckets + o.size ∧
        r.2.BodyOf kit d'.homes var (o.leaves d.buckets) := by
  refine (yields_modify (Q := fun _ d' =>
    d' = { d with scopes := ⟨var, .empty, []⟩ :: d.scopes }) rfl).bind fun _ d₁ h₁ => ?_
  subst h₁
  refine (hbody (h.open var)).bind fun f d₂ h₂ => ?_
  obtain ⟨rfl, hgood, hadds, hbuckets⟩ := h₂
  refine (yields_get (Q := fun r d' => d₂ = r ∧ d₂ = d') ⟨rfl, rfl⟩).bind fun r d₃ h₃ => ?_
  obtain ⟨rfl, rfl⟩ := h₃
  have hgrown := hadds.grown
  obtain ⟨hs, hs', hin, hout⟩ := hadds
  obtain ⟨rfl, rfl⟩ := List.cons.inj hs
  rename_i inner outer
  have hne : outer ≠ [] := fun he => by
    rw [he] at hout
    cases hd : d.scopes with
    | nil => exact h.ne hd
    | cons _ _ =>
      rw [hd] at hout
      cases hout
  simp only [hs']
  refine (yields_set (Q := fun _ d' => d' = { d₂ with scopes := outer }) rfl).bind
    fun _ d₄ h₄ => yields_pure ?_
  subst h₄
  have hmem : inner ∈ d₂.scopes := by
    rw [hs']
    exact List.mem_cons_self
  have hhomes : d₂.homes = (var, inner.node.places) ::
      Draft.homes { d₂ with scopes := outer } := by
    rw [Draft.homes, hs', List.map_cons, hin.var]
    rfl
  refine ⟨rfl, hgood.close hs' hne, Draft.adds_nil h.ne hout, hbuckets, hgood.locals inner hmem,
    hgood.tidy hmem, fun p hp hw => ?_, hin.buckets.trans (.of_eq (List.append_nil _))⟩
  rw [← hhomes]
  exact (hin.new p hp hw).resolve_left fun h => by cases h

/-- **A loop is placed** where it sees its array and the fields that its body reads. -/
theorem yields_placeLoop {mode : LoopMode} {var : Variable} {f : Field} {e : Expr}
    {body : Compile Formula} (h : d.Good kept)
    (hbody : ∀ {kept : List Nat} {d : Draft}, d.Good kept → Yields d body fun fm d' =>
      fm = e.outline.formula ∧ d.Becomes kit kept e.outline d') :
    Yields d (placeLoop mode var f e body) fun fm d' =>
      fm = (Outline.loop mode var (.field f) e e.outline).formula ∧
        d.Becomes kit kept (.loop mode var (.field f) e e.outline) d' := by
  refine yields_nextBucket (Q := fun b d' => b = d.buckets ∧
    d' = { d with buckets := d.buckets + 1 }) ⟨rfl, rfl⟩ |>.bind fun b d₁ h₁ => ?_
  obtain ⟨rfl, rfl⟩ := h₁
  have h₁ : ({ d with buckets := d.buckets + 1 } : Draft).Good kept := h.of_scopes rfl rfl
  refine Yields.bind (yields_scopeOf (Q := fun i d' => { d with buckets := d.buckets + 1 } = d' ∧
    d.scopes.findIdx? (·.var = f.root) = some i) fun i hi => ⟨rfl, hi⟩) fun i d₂ h₂ => ?_
  obtain ⟨rfl, hi⟩ := h₂
  have hzero := scopeOf_eq_zero_iff h.ne hi
  refine (yields_localPaths h₁.ne _ []).bind fun paths d₂ h₂ => ?_
  obtain ⟨rfl, hpaths⟩ := h₂
  replace hpaths : paths = loopPaths d.homes.cur f var e := hpaths
  refine (yields_inScope h₁ hbody).bind fun r d₂ h₂ => ?_
  obtain ⟨fm, inner⟩ := r
  obtain ⟨rfl, hgood, hadds, hbuckets, hloop⟩ := h₂
  have hcur : d₂.homes.cur = d.homes.cur := hadds.grown.cur
  dsimp only at hgood hloop ⊢
  -- the loop is added to what its body and its array have added
  have added {d₃ d' : Draft} (hg : d₂.Adds kit [] d₃) (hb : d₃.buckets = d₂.buckets)
      (h' : d'.Good kept ∧
        d₃.Adds kit [(d.buckets, .loop mode var (.field f) e e.outline)] d' ∧
          d'.buckets = d₃.buckets) :
      d.Becomes kit kept (.loop mode var (.field f) e e.outline) d' := by
    refine ⟨h'.1, ((hadds.trans hg).trans h'.2.1).of_scopes rfl, ?_⟩
    rw [h'.2.2, hb, hbuckets]
    exact Nat.add_right_comm _ _ _
  split
  · next hin =>
    have hinline : IsInline d₂.homes.cur f var e := by
      rw [hcur]
      exact ⟨hzero.mp hin.1, hpaths ▸ hin.2⟩
    obtain ⟨origin, hmem, hbuilt⟩ := hloop.built.origin
    have hok : (Part.loop ⟨d.buckets, mode, .active, inner.node, inner.slots⟩).Tidy := by
      rintro l hl
      cases hl
      exact ⟨hloop.locals, hloop.tidy⟩
    refine Yields.bind (yields_modifyNode (fun n => Node.own_loop _) (fun _ => rfl) hgood hok
      (.loop hinline origin hmem hbuilt hloop.built.covers)) fun _ d' h' =>
        yields_pure ⟨rfl, added (.refl hgood.ne) rfl h'⟩
  · next hin =>
    have hlate : ¬ IsInline d₂.homes.cur f var e := fun hin' => by
      rw [hcur] at hin'
      exact hin ⟨hzero.mpr hin'.1, hpaths ▸ hin'.2⟩
    have hi₂ : d₂.scopes.findIdx? (·.var = f.root) = some i := by
      rw [findIdx?_of_vars hadds.vars]
      exact hi
    refine (yields_slotOf kit hgood hi₂).bind fun s d₃ h₃ => ?_
    obtain ⟨hgives, hhome⟩ := h₃
    have hgrown := hgives.adds.grown
    have hloop₃ := hloop.built.mono (.cons ⟨rfl, fun _ h => h⟩ hgrown)
    obtain ⟨origin, hmem, hbuilt⟩ := hloop₃.origin
    have hok : (Part.afterLoop ⟨d.buckets, mode, .slot s, inner.node, inner.slots⟩).Tidy := by
      rintro l hl
      cases hl
      exact ⟨hloop.locals, hloop.tidy⟩
    have hb : (Part.afterLoop ⟨d.buckets, mode, .slot s, inner.node, inner.slots⟩).Built kit
        d₃.homes (commonPath (loopPaths d₃.homes.cur f var e)) d.buckets
        (.loop mode var (.field f) e e.outline) :=
      .afterLoop (hgrown.cur ▸ hlate) hhome origin hmem hbuilt hloop₃.covers
    rw [hgrown.cur, hcur, ← hpaths] at hb
    refine Yields.bind (yields_modifyNode (fun n => Node.own_afterLoop _) (fun _ => rfl)
      hgives.good hok hb) fun _ d' h' => yields_pure ⟨rfl, added hgives.adds hgives.buckets h'⟩

/-! ## 5. Expressions -/

/-- One outline after the other, below a bucket that has been taken for both. -/
theorem Draft.Becomes.pair {a b o : Outline}
    (ha : Draft.Becomes kit kept { d with buckets := d.buckets + 1 } a d')
    (hb : d'.Becomes kit kept b d'')
    (hleaves : o.leaves d.buckets =
      a.leaves (d.buckets + 1) ++ b.leaves (d.buckets + 1 + a.size))
    (hsize : o.size = a.size + b.size + 1) : d.Becomes kit kept o d'' := by
  have hmid : d'.buckets = d.buckets + 1 + a.size := ha.buckets
  refine ⟨hb.good, ?_, ?_⟩
  · rw [hleaves, ← hmid]
    exact (ha.adds.trans hb.adds).of_scopes rfl
  · rw [hb.buckets, hmid, hsize]
    omega

mutual

/-- **An expression adds its outline.** -/
theorem yields_formula : ∀ (e : Expr) {kept : List Nat} {d : Draft}, d.Good kept →
    Yields d (formula kit e) fun f d' => f = e.outline.formula ∧ d.Becomes kit kept e.outline d'
  | .and es, _, _, h => yields_chain true es h
  | .or es, _, _, h => yields_chain false es h
  | .not e, _, d, h => by
    rw [formula]
    refine yields_nextBucket (Q := fun _ d' => d' = { d with buckets := d.buckets + 1 }) rfl
      |>.bind fun _ d₁ h₁ => ?_
    subst h₁
    have h₁ := h.of_scopes (e := { d with buckets := d.buckets + 1 }) rfl rfl
    refine (yields_formula e h₁).bind fun f d₂ h₂ => yields_pure ?_
    obtain ⟨rfl, hgood, hadds, hbuckets⟩ := h₂
    exact ⟨rfl, hgood, hadds.of_scopes rfl, hbuckets.trans (Nat.add_right_comm _ _ _)⟩
  | .loop mode var target body, _, _, h => by
    cases target with
    | field f =>
      rw [formula]
      exact yields_placeLoop h fun h => yields_formula body h
    | _ =>
      rw [formula]
      · exact yields_throw
      · exact nofun
  | .present e, _, _, h => by
    rw [formula]
    exact yields_unaryTest (.present e) h rfl rfl rfl (fun _ => rfl) fun o V captured v hv => by
      rw [Check.holds, Expr.testBy, hv]
  | .absent e, _, _, h => by
    rw [formula]
    exact yields_unaryTest (.absent e) h rfl rfl rfl (fun _ => rfl) fun o V captured v hv => by
      rw [Check.holds, Expr.testBy, hv]
  | .relation r lhs rhs, _, _, h => by
    rw [formula]
    exact yields_relationTest h
  | .like lhs rhs, _, _, h => by
    rw [formula]
    exact yields_patternTest h
  | .truth b, _, _, h => by
    rw [formula]
    exact yields_isTrue h rfl fun _ => rfl
  | .value v, _, _, h => by
    rw [formula]
    exact yields_isTrue h rfl fun _ => rfl
  | .field f, _, _, h => by
    rw [formula]
    exact yields_isTrue h rfl fun _ => rfl
  | .func f params, _, _, h => by
    rw [formula]
    exact yields_isTrue h rfl fun _ => rfl

theorem yields_chain (conjunction : Bool) : ∀ (es : List Expr) {kept : List Nat} {d : Draft},
    d.Good kept → Yields d (chain kit conjunction es) fun f d' =>
      f = (outlineOfChain conjunction es).formula ∧
        d.Becomes kit kept (outlineOfChain conjunction es) d'
  | [], _, _, h => by
    rw [chain]
    exact yields_isTrue h rfl fun _ => rfl
  | [e], _, _, h => by
    rw [chain, outlineOfChain]
    exact yields_formula e h
  | e :: e' :: rest, _, d, h => by
    rw [chain, outlineOfChain]
    · refine yields_nextBucket (Q := fun _ d' => d' = { d with buckets := d.buckets + 1 }) rfl
        |>.bind fun _ d₁ h₁ => ?_
      subst h₁
      have h₁ := h.of_scopes (e := { d with buckets := d.buckets + 1 }) rfl rfl
      refine (yields_formula e h₁).bind fun a d₂ h₂ => ?_
      refine (yields_chain conjunction (e' :: rest) h₂.2.good).bind fun b d₃ h₃ =>
        yields_pure ?_
      obtain ⟨rfl, hfirst⟩ := h₂
      obtain ⟨rfl, hrest⟩ := h₃
      cases conjunction with
      | true => exact ⟨rfl, hfirst.pair hrest rfl rfl⟩
      | false => exact ⟨rfl, hfirst.pair hrest rfl rfl⟩
    · exact List.cons_ne_nil _ _
    · exact List.cons_ne_nil _ _

end

/-- The buckets at which independent expressions begin. -/
def startsOf : List Expr → (i : Nat) → List Nat
  | [], _ => []
  | [_], i => [i]
  | e :: rest, i => (i + 1) :: startsOf rest (i + 1 + e.outline.size)

/-- **Independent expressions add their outlines.** -/
theorem yields_batch : ∀ (es : List Expr) {d : Draft}, d.Good kept →
    Yields d (batch kit es) fun r d' => es ≠ [] ∧ r.1 = (outlineOfAll es).formula ∧
      r.2 = startsOf es d.buckets ∧ d.Becomes kit kept (outlineOfAll es) d'
  | [], _, _ => yields_throw
  | [e], d, h => by
    rw [batch]
    refine (yields_get (Q := fun r d' => d = r ∧ d = d') ⟨rfl, rfl⟩).bind fun r d' hr => ?_
    obtain ⟨rfl, rfl⟩ := hr
    refine (yields_formula e h).bind fun f d' hf => yields_pure ?_
    exact ⟨List.cons_ne_nil _ _, hf.1, rfl, hf.2⟩
  | e :: e' :: rest, d, h => by
    rw [batch]
    · refine yields_nextBucket (Q := fun _ d' => d' = { d with buckets := d.buckets + 1 }) rfl
        |>.bind fun _ d₁ h₁ => ?_
      subst h₁
      have h₁ := h.of_scopes (e := { d with buckets := d.buckets + 1 }) rfl rfl
      refine (yields_get (Q := fun r d' => { d with buckets := d.buckets + 1 } = r ∧
        { d with buckets := d.buckets + 1 } = d') ⟨rfl, rfl⟩).bind fun r d₂ hr => ?_
      obtain ⟨rfl, rfl⟩ := hr
      refine (yields_formula e h₁).bind fun a d₂ h₂ => ?_
      refine (yields_batch (e' :: rest) h₂.2.good).bind fun r d₃ h₃ => ?_
      obtain ⟨b, buckets⟩ := r
      obtain ⟨rfl, hfirst⟩ := h₂
      obtain ⟨-, rfl, rfl, hrest⟩ := h₃
      refine yields_pure ⟨List.cons_ne_nil _ _, rfl, ?_, hfirst.pair hrest rfl rfl⟩
      rw [hfirst.buckets]
      rfl
    · exact List.cons_ne_nil _ _

end Plan

end Sift
