import Sift.Proofs.Plan.Outline

/-!
# Expressions that compile

`Expr.Formed kit vars` says that an expression may stand in the place of a truth value where the
variables `vars` are bound: its fields start from bound variables, loops are over fields, functions
have their operands, and patterns are patterns. It says nothing of drafts.

`Plan.Asks` relates it to compiling: a step asks for `P` where it succeeds if and only if `P`. That
depends on the variables that are bound and on nothing else of the draft (`asks_formula`), and the
nodes of a formula are always a tree (`Formula.ofNodes_layout`). So expressions have a plan together
if and only if each has one (`Plan.compileAll_isOk`), and what is wrong otherwise is wrong in one of
them (`Plan.compileAll_error`).
-/

namespace Sift

/-! ## 1. Well-formed expressions -/

namespace Expr

variable {kit : Toolkit}

mutual

/-- The expression may stand in the place of a value. -/
def IsOperand (vars : List Variable) : Expr → Prop
  | .truth _ | .value _ => True
  | .field f => f.root ∈ vars
  | .func f params => params.length = f.arity ∧ AllOperands vars params
  | .not _ | .and _ | .or _ | .loop .. | .present _ | .absent _ | .relation .. | .like .. => False

/-- All of several expressions may. -/
def AllOperands (vars : List Variable) : List Expr → Prop
  | [] => True
  | e :: rest => e.IsOperand vars ∧ AllOperands vars rest

end

mutual

/-- **The expression may stand in the place of a truth value.** -/
def Formed (kit : Toolkit) (vars : List Variable) : Expr → Prop
  | .and es | .or es => AllFormed kit vars es
  | .not e => e.Formed kit vars
  | .loop _ var target body =>
    (∃ f, target = .field f ∧ f.root ∈ vars) ∧ body.Formed kit (var :: vars)
  | .present e | .absent e => e.IsOperand vars
  | .relation _ lhs rhs => lhs.IsOperand vars ∧ rhs.IsOperand vars
  | .like lhs rhs => lhs.IsOperand vars ∧ (rhs.pattern? kit).isSome = true
  | .truth b => (Expr.truth b).IsOperand vars
  | .value v => (Expr.value v).IsOperand vars
  | .field f => (Expr.field f).IsOperand vars
  | .func f params => (Expr.func f params).IsOperand vars

/-- All of several expressions may. -/
def AllFormed (kit : Toolkit) (vars : List Variable) : List Expr → Prop
  | [] => True
  | e :: rest => e.Formed kit vars ∧ AllFormed kit vars rest

end

theorem allFormed_iff {vars : List Variable} {es : List Expr} :
    AllFormed kit vars es ↔ ∀ e ∈ es, e.Formed kit vars := by
  induction es with
  | nil => simp [AllFormed]
  | cons e rest ih => rw [AllFormed, ih, List.forall_mem_cons]

/-! ## 2. Fields -/

mutual

/-- The fields of an operand are bound. -/
theorem IsOperand.bound {vars : List Variable} : ∀ {e : Expr}, e.IsOperand vars →
    ∀ f ∈ e.fields, f.root ∈ vars
  | .truth _, _, _, hf | .value _, _, _, hf => by simp [fields] at hf
  | .field f, h, g, hg => by
    rw [fields, List.mem_singleton] at hg
    rw [hg]
    exact h
  | .func _ params, h, f, hf => by
    rw [fields] at hf
    exact AllOperands.bound h.2 f hf
  | .not _, h, _, _ | .and _, h, _, _ | .or _, h, _, _ | .loop .., h, _, _ | .present _, h, _, _
  | .absent _, h, _, _ | .relation .., h, _, _ | .like .., h, _, _ => h.elim

theorem AllOperands.bound {vars : List Variable} : ∀ {es : List Expr}, AllOperands vars es →
    ∀ f ∈ fieldsOfAll es, f.root ∈ vars
  | [], _, _, hf => by simp [fieldsOfAll] at hf
  | e :: rest, h, f, hf => by
    rw [fieldsOfAll, List.mem_append] at hf
    rcases hf with hf | hf
    · exact h.1.bound f hf
    · exact AllOperands.bound h.2 f hf

end

/-- A pattern reads no field. -/
theorem fields_of_pattern {e : Expr} (h : (e.pattern? kit).isSome = true) : e.fields = [] := by
  cases e with
  | value _ => rfl
  | _ => cases h

mutual

/-- **The fields of a well-formed expression** are bound, where it stands or within it. -/
theorem Formed.bound : ∀ {e : Expr} {vars : List Variable}, e.Formed kit vars →
    ∀ f ∈ e.fields, f.root ∈ e.bound ∨ f.root ∈ vars
  | .and es, _, h, f, hf | .or es, _, h, f, hf => by
    rw [fields] at hf
    rw [Expr.bound]
    exact AllFormed.bound h f hf
  | .not e, _, h, f, hf => by
    rw [fields] at hf
    rw [Expr.bound]
    exact Formed.bound (e := e) h f hf
  | .loop _ var target body, vars, h, f, hf => by
    obtain ⟨⟨g, rfl, hg⟩, hbody⟩ := h
    rw [fields, List.mem_append, fields, List.mem_singleton] at hf
    rw [Expr.bound, List.mem_cons, List.mem_append]
    rcases hf with rfl | hf
    · exact .inr hg
    · rcases hbody.bound f hf with hb | hb
      · exact .inl (.inr (.inr hb))
      · exact (List.mem_cons.mp hb).imp .inl id
  | .present e, _, h, f, hf | .absent e, _, h, f, hf => by
    rw [fields] at hf
    exact .inr (IsOperand.bound (e := e) h f hf)
  | .relation _ lhs rhs, _, h, f, hf => by
    rw [fields, List.mem_append] at hf
    exact .inr (hf.elim (h.1.bound f) (h.2.bound f))
  | .like lhs rhs, _, h, f, hf => by
    rw [fields, fields_of_pattern h.2, List.append_nil] at hf
    exact .inr (h.1.bound f hf)
  | .truth b, _, h, f, hf => .inr (IsOperand.bound (e := .truth b) h f hf)
  | .value v, _, h, f, hf => .inr (IsOperand.bound (e := .value v) h f hf)
  | .field g, _, h, f, hf => .inr (IsOperand.bound (e := .field g) h f hf)
  | .func g params, _, h, f, hf => .inr (IsOperand.bound (e := .func g params) h f hf)

theorem AllFormed.bound : ∀ {es : List Expr} {vars : List Variable}, AllFormed kit vars es →
    ∀ f ∈ fieldsOfAll es, f.root ∈ boundByAll es ∨ f.root ∈ vars
  | [], _, _, _, hf => by simp [fieldsOfAll] at hf
  | e :: rest, _, h, f, hf => by
    rw [fieldsOfAll, List.mem_append] at hf
    rw [boundByAll, List.mem_append]
    rcases hf with hf | hf
    · exact (h.1.bound f hf).imp .inl id
    · exact (AllFormed.bound h.2 f hf).imp .inr id

end

/-- Only strings are patterns. -/
theorem pattern?_of_ne {e : Expr} (h : ∀ s, e = .value (.string s) → False) :
    e.pattern? kit = none := by
  unfold pattern?
  split
  · next s => exact (h s rfl).elim
  · rfl

end Expr

/-! ## 3. Steps that may fail -/

/-- What is wrong is wrong in an expression. -/
def CompileError.OfExpr : CompileError → Prop
  | .emptyBatch | .tree _ => False
  | .unboundVariable _ | .invalidLoopTarget | .invalidPattern _ | .nonLiteralPattern
  | .functionArity .. | .booleanOperand => True

namespace Plan

open Resolution

/-- The variables that are bound, innermost first. -/
def Draft.vars (d : Draft) : List Variable := d.scopes.map (·.var)

/-- **The step succeeds if and only if `P`** where the variables `vars` are bound. Then `Q` holds of
    the result, and the same variables are bound. Otherwise there is something wrong in an expression. -/
def Asks {α : Type} (vars : List Variable) (m : Compile α) (P : Prop) (Q : α → Prop) : Prop :=
  ∀ d, d.vars = vars → match m.run d with
    | .ok (a, d') => P ∧ Q a ∧ d'.vars = vars
    | .error e => ¬ P ∧ e.OfExpr

section Asks

variable {α β : Type} {vars : List Variable} {m : Compile α} {P : Prop} {Q : α → Prop}

theorem Asks.bind {f : α → Compile β} {R : Prop} {S : β → Prop} (h : Asks vars m P Q)
    (hf : P → ∀ a, Q a → Asks vars (f a) R S) : Asks vars (m >>= f) (P ∧ R) S := by
  intro d hd
  have hm := h d hd
  rw [StateT.run_bind]
  split at hm
  · next a d' heq =>
    obtain ⟨hp, hq, hd'⟩ := hm
    have hfa := hf hp a hq d' hd'
    rw [heq]
    show match (f a).run d' with | .ok (b, d'') => _ | .error _ => _
    split at hfa
    · exact ⟨⟨hp, hfa.1⟩, hfa.2⟩
    · exact ⟨fun h => hfa.1 h.2, hfa.2⟩
  · next e heq =>
    rw [heq]
    exact ⟨fun h => hm.1 h.1, hm.2⟩

theorem Asks.mono {R : Prop} {S : α → Prop} (h : Asks vars m P Q) (hp : P ↔ R)
    (hq : ∀ a, Q a → S a) : Asks vars m R S := by
  intro d hd
  have hm := h d hd
  split at hm
  · exact ⟨hp.mp hm.1, hq _ hm.2.1, hm.2.2⟩
  · exact ⟨mt hp.mpr hm.1, hm.2⟩

/-- A step that cannot fail, and then another. -/
theorem Asks.next {f : α → Compile β} {R : Prop} {S : β → Prop} (h : Asks vars m True Q)
    (hf : ∀ a, Q a → Asks vars (f a) R S) : Asks vars (m >>= f) R S :=
  (h.bind fun _ => hf).mono (by rw [true_and]) fun _ h => h

/-- A step, and then one that cannot fail. -/
theorem Asks.last {f : α → Compile β} {S : β → Prop} (h : Asks vars m P Q)
    (hf : P → ∀ a, Q a → Asks vars (f a) True S) : Asks vars (m >>= f) P S :=
  (h.bind hf).mono (by rw [and_true]) fun _ h => h

theorem asks_pure {a : α} (h : Q a) : Asks vars (pure a) True Q := fun _ hd => ⟨trivial, h, hd⟩

theorem asks_throw {e : CompileError} (h : e.OfExpr) (hp : ¬ P) :
    Asks vars (throw e : Compile α) P Q := fun _ _ => ⟨hp, h⟩

theorem asks_get_bind {f : Draft → Compile α} (h : ∀ d : Draft, d.vars = vars → Asks vars (f d) P Q) :
    Asks vars (get >>= f) P Q := fun d hd => h d hd d hd

theorem asks_modify {f : Draft → Draft} (h : ∀ d : Draft, (f d).vars = d.vars) :
    Asks vars (modify f) True fun _ => True := fun d hd => ⟨trivial, trivial, (h d).trans hd⟩

theorem asks_set {d : Draft} (h : d.vars = vars) : Asks vars (set d) True fun _ => True :=
  fun _ _ => ⟨trivial, trivial, h⟩

theorem asks_map {f : α → β} {S : β → Prop} (h : Asks vars m P fun a => S (f a)) :
    Asks vars (f <$> m) P S := by
  rw [← bind_pure_comp]
  exact h.last fun _ _ hq => asks_pure hq

end Asks

/-! ## 4. Scopes and slots -/

section Steps

variable {kit : Toolkit} {vars : List Variable}

theorem asks_nextBucket : Asks vars nextBucket True fun _ => True :=
  fun _ hd => ⟨trivial, trivial, hd⟩

/-- A scope that is modified keeps its variable. -/
theorem asks_modifyScope {i : Nat} {f : Scope → Scope} (h : ∀ sc, (f sc).var = sc.var) :
    Asks vars (modifyScope i f) True fun _ => True :=
  asks_modify fun d => by
    refine List.ext_getElem? fun k => ?_
    rw [Draft.vars, List.getElem?_map, Draft.vars, List.getElem?_map, List.getElem?_modify]
    cases d.scopes[k]? with
    | none => rfl
    | some sc =>
      by_cases hk : i = k
      · simp [hk, h sc]
      · simp [hk]

theorem asks_modifyNode {path : Path} {f : Node → Node} :
    Asks vars (modifyNode path f) True fun _ => True := asks_modifyScope fun _ => rfl

/-- A variable must be bound. -/
theorem asks_scopeOf {var : Variable} : Asks vars (scopeOf var) (var ∈ vars) fun _ => True := by
  refine asks_get_bind fun d hd => ?_
  have hmem : var ∈ vars ↔ (d.scopes.findIdx? (·.var = var)).isSome = true := by
    rw [List.findIdx?_isSome, List.any_eq_true, ← hd, Draft.vars, List.mem_map]
    simp
  cases hf : d.scopes.findIdx? (·.var = var) with
  | some i => exact (asks_pure trivial).mono (by rw [hmem, hf]; simp) fun _ h => h
  | none => exact asks_throw trivial (by rw [hmem, hf]; simp)

theorem asks_slotFor {i : Nat} {path : Path} : Asks vars (slotFor i path) True fun _ => True := by
  refine asks_get_bind fun d hd => ?_
  split
  · exact asks_pure trivial
  · refine Asks.next (asks_set hd) fun _ _ => ?_
    exact Asks.next (asks_modifyScope fun _ => rfl) fun _ _ => asks_pure trivial

/-- The variables of all fields must be bound. -/
theorem asks_localPaths : ∀ (fields : List Field) (found : List Path),
    Asks vars (localPaths fields found) (∀ f ∈ fields, f.root ∈ vars) fun _ => True
  | [], _ => (asks_pure trivial).mono (by simp) fun _ h => h
  | f :: rest, found => by
    refine (asks_scopeOf.bind (R := ∀ f ∈ rest, f.root ∈ vars) (S := fun _ => True)
      fun _ i _ => ?_).mono
      (List.forall_mem_cons (p := fun f : Field => f.root ∈ vars)).symm fun _ h => h
    split
    · exact asks_localPaths rest _
    · exact asks_localPaths rest _

/-! ## 5. Operands and tests -/

theorem asks_fieldOperand {active : Option Path} {f : Field} :
    Asks vars (fieldOperand active f) (f.root ∈ vars) fun _ => True := by
  refine asks_scopeOf.last fun _ i _ => ?_
  split
  · exact asks_pure trivial
  · exact asks_slotFor.next fun _ _ => asks_pure trivial

mutual

theorem asks_operand {active : Option Path} : ∀ e : Expr,
    Asks vars (operand kit active e) (e.IsOperand vars) fun _ => True
  | .truth _ | .value _ => asks_pure trivial
  | .field _ => asks_fieldOperand
  | .func f params => by
    rw [operand]
    split
    · next hlen => exact asks_throw trivial fun h => hlen h.1
    · next hlen =>
      have hlen := Decidable.not_not.mp hlen
      refine (Asks.next (asks_pure (Q := fun _ => True) trivial) fun _ _ =>
        (asks_operands params).last fun _ _ _ => asks_pure trivial).mono ?_ fun _ h => h
      exact ⟨fun h => ⟨hlen, h⟩, fun h => h.2⟩
  | .not _ | .and _ | .or _ | .loop .. | .present _ | .absent _ | .relation .. | .like .. =>
    asks_throw trivial id

theorem asks_operands {active : Option Path} : ∀ es : List Expr,
    Asks vars (operands kit active es) (Expr.AllOperands vars es) fun _ => True
  | [] => asks_pure trivial
  | e :: rest => by
    rw [operands]
    exact (asks_operand e).bind fun _ _ _ => (asks_operands rest).last fun _ _ _ => asks_pure trivial

end

theorem asks_patternOf {e : Expr} :
    Asks vars (patternOf kit e) ((e.pattern? kit).isSome = true) fun _ => True := by
  unfold patternOf
  split
  · next s =>
    rw [show (Expr.value (.string s)).pattern? kit = kit.patterns.ofString? s from rfl]
    cases hp : kit.patterns.ofString? s with
    | some p => exact (asks_pure trivial).mono (by simp) fun _ h => h
    | none => exact asks_throw trivial (by simp)
  · next hne =>
    exact asks_throw trivial (by simp [Expr.pattern?_of_ne hne])

/-- A test asks for no more than its operands do. -/
theorem asks_place {fields : List Field} {check : Option Path → Compile Check} {P : Prop}
    (hP : P → ∀ f ∈ fields, f.root ∈ vars) (h : ∀ active, Asks vars (check active) P fun _ => True) :
    Asks vars (place fields check) P fun _ => True := by
  refine asks_nextBucket.next fun bucket _ => ?_
  refine ((asks_localPaths fields []).bind (R := P) (S := fun _ => True) fun _ paths _ => ?_).mono
    ⟨fun h => h.2, fun h => ⟨hP h, h⟩⟩ fun _ h => h
  have htest (active : Option Path) (put : Check → Compile Unit)
      (hput : ∀ c, Asks vars (put c) True fun _ => True) :
      Asks vars (check active >>= fun c => put c >>= fun _ => pure Formula.leaf) P fun _ => True :=
    (h active).last fun _ c _ => (hput c).next fun _ _ => asks_pure trivial
  split
  · exact htest _ _ fun _ => asks_modifyNode
  · exact htest _ _ fun _ => asks_modifyNode

theorem asks_unaryTest {check : Operand → Check} {e : Expr} :
    Asks vars (unaryTest kit check e) (e.IsOperand vars) fun _ => True :=
  asks_place Expr.IsOperand.bound fun _ => asks_map (asks_operand e)

theorem asks_relationTest {r : Relation} {lhs rhs : Expr} : Asks vars (relationTest kit r lhs rhs)
    (lhs.IsOperand vars ∧ rhs.IsOperand vars) fun _ => True := by
  refine asks_place (fun h f hf => ?_) fun _ => (asks_operand lhs).bind fun _ _ _ =>
    (asks_operand rhs).last fun _ _ _ => asks_pure trivial
  exact (List.mem_append.mp hf).elim (h.1.bound f) (h.2.bound f)

theorem asks_patternTest {lhs rhs : Expr} : Asks vars (patternTest kit lhs rhs)
    (lhs.IsOperand vars ∧ (rhs.pattern? kit).isSome = true) fun _ => True := by
  refine (asks_patternOf.bind fun _ p _ => ?_).mono and_comm fun _ h => h
  exact asks_place Expr.IsOperand.bound fun _ => asks_map (asks_operand lhs)

/-! ## 6. Expressions -/

/-- The body of a loop is compiled with the variable of the loop bound as well. -/
theorem asks_inScope {var : Variable} {body : Compile Formula} {P : Prop}
    (h : Asks (var :: vars) body P fun _ => True) : Asks vars (inScope var body) P fun _ => True := by
  intro d hd
  have hb := h { d with scopes := ⟨var, .empty, []⟩ :: d.scopes } (congrArg (var :: ·) hd)
  unfold inScope
  rw [StateT.run_bind, StateT.run_modify, pure_bind, StateT.run_bind]
  split at hb
  · next a d' heq =>
    obtain ⟨hp, -, hd'⟩ := hb
    rw [heq]
    obtain ⟨buckets, slots, scopes⟩ := d'
    cases scopes with
    | nil => cases hd'
    | cons inner outer => exact ⟨hp, trivial, (List.cons.inj hd').2⟩
  · next e heq =>
    rw [heq]
    exact hb

/-- A loop asks that its array starts from a bound variable, and what its body asks. -/
theorem asks_placeLoop {mode : LoopMode} {var : Variable} {target : Field} {e : Expr}
    {body : Compile Formula}
    (hbody : Asks (var :: vars) body (e.Formed kit (var :: vars)) fun _ => True) :
    Asks vars (placeLoop mode var target e body)
      (target.root ∈ vars ∧ e.Formed kit (var :: vars)) fun _ => True := by
  refine asks_nextBucket.next fun bucket _ => ?_
  refine asks_scopeOf.bind fun hroot scope _ => ?_
  have hfields : e.Formed kit (var :: vars) →
      ∀ f ∈ (target :: e.fields).filter (·.root ∉ e.bound ++ [var]), f.root ∈ vars := by
    intro he f hf
    rw [List.mem_filter, decide_eq_true_eq, List.mem_append, List.mem_singleton, not_or] at hf
    obtain ⟨hf, hbound, hvar⟩ := hf
    rcases List.mem_cons.mp hf with rfl | hf
    · exact hroot
    · exact (List.mem_cons.mp ((he.bound f hf).resolve_left hbound)).resolve_left hvar
  refine ((asks_localPaths _ []).bind (R := e.Formed kit (var :: vars)) (S := fun _ => True)
    fun _ paths _ => ?_).mono ⟨fun h => h.2, fun h => ⟨hfields h, h⟩⟩ fun _ h => h
  refine (asks_inScope hbody).last fun _ r _ => ?_
  obtain ⟨formula, inner⟩ := r
  dsimp only
  split
  · exact asks_modifyNode.next fun _ _ => asks_pure trivial
  · exact asks_slotFor.next fun _ _ => asks_modifyNode.next fun _ _ => asks_pure trivial

end Steps

variable {kit : Toolkit}

mutual

/-- **An expression compiles if and only if it is well-formed** where it stands. -/
theorem asks_formula : ∀ (e : Expr) {vars : List Variable},
    Asks vars (formula kit e) (e.Formed kit vars) fun _ => True
  | .and es, _ => asks_chain true es
  | .or es, _ => asks_chain false es
  | .not e, _ => asks_nextBucket.next fun _ _ => (asks_formula e).last fun _ _ _ => asks_pure trivial
  | .loop mode var target body, vars => by
    cases target with
    | field f =>
      rw [formula, Expr.Formed]
      refine (asks_placeLoop (asks_formula body)).mono ?_ fun _ h => h
      simp
    | _ =>
      rw [formula, Expr.Formed]
      · exact asks_throw trivial (by simp)
      · exact nofun
  | .present e, _ => asks_unaryTest (e := e)
  | .absent e, _ => asks_unaryTest (e := e)
  | .relation .., _ => asks_relationTest
  | .like .., _ => asks_patternTest
  | .truth b, _ => asks_unaryTest (e := .truth b)
  | .value v, _ => asks_unaryTest (e := .value v)
  | .field f, _ => asks_unaryTest (e := .field f)
  | .func f params, _ => asks_unaryTest (e := .func f params)

theorem asks_chain (conjunction : Bool) : ∀ (es : List Expr) {vars : List Variable},
    Asks vars (chain kit conjunction es) (Expr.AllFormed kit vars es) fun _ => True
  | [], _ => asks_unaryTest (e := .truth conjunction)
  | [e], _ => by
    rw [chain]
    exact (asks_formula e).mono (by simp [Expr.AllFormed]) fun _ h => h
  | e :: e' :: rest, _ => by
    rw [chain]
    · exact asks_nextBucket.next fun _ _ => (asks_formula e).bind fun _ _ _ =>
        (asks_chain conjunction (e' :: rest)).last fun _ _ _ => by
          split
          · exact asks_pure trivial
          · exact asks_pure trivial
    · exact List.cons_ne_nil _ _

end

/-- Several expressions compile if and only if each does. -/
theorem asks_batch : ∀ (e : Expr) (rest : List Expr) {vars : List Variable},
    Asks vars (batch kit (e :: rest)) (Expr.AllFormed kit vars (e :: rest)) fun _ => True
  | e, [], _ => by
    rw [batch]
    refine asks_get_bind fun d _ => ?_
    refine ((asks_formula e).last fun _ _ _ => asks_pure trivial).mono ?_ fun _ h => h
    simp [Expr.AllFormed]
  | e, e' :: rest, _ => by
    rw [batch]
    · refine asks_nextBucket.next fun _ _ => asks_get_bind fun d _ => ?_
      exact (asks_formula e).bind fun _ _ _ => (asks_batch e' rest).last fun _ r _ =>
        asks_pure trivial
    · exact List.cons_ne_nil _ _

/-! ## 7. Trees -/

theorem enter_eq {nodes : Array TreeNode} {node child expected : Nat} (h0 : 0 < child)
    (hc : child < nodes.size) (he : child = expected) :
    enter nodes node child expected = .ok ⟨child, he, hc⟩ := by
  rw [enter, dif_pos ⟨h0, hc⟩, dif_pos he]

/-- The walk of a node with two children, where the walks of the children succeed. -/
theorem walk_two {t : Tree} {i right : Nat} (hl : i + 1 < t.size) (hr : right < t.size)
    {l : Resolution.Part (i + 1)} {r : Resolution.Part right} (hwl : walk t.nodes i (i + 1) hl = .ok l)
    (hnext : l.next = right) (hwr : walk t.nodes i right hr = .ok r) :
    ∃ part : Resolution.Part i, (do
      let c ← enter t.nodes i (i + 1) (i + 1)
      let l ← walk t.nodes i c.1 c.2.2
      let d ← enter t.nodes i right l.next
      let r ← walk t.nodes i d.1 d.2.2
      return ⟨r.next, r.next :: (l.ends ++ r.ends), by
        have := c.2.1
        have := d.2.1
        have := l.lt
        have := r.lt
        omega⟩ : Except TreeError (Resolution.Part i)) = .ok part ∧ part.next = r.next := by
  subst hnext
  have hlt := l.lt
  rw [enter_eq (Nat.succ_pos i) hl rfl]
  simp only [bind, Except.bind, hwl]
  rw [enter_eq (by omega) hr rfl]
  simp only [hwr]
  exact ⟨_, rfl, rfl⟩

theorem Formula.Has.lt {t : Tree} {f : Formula} {parent i : Nat} (h : Has t i (f.layout parent i)) :
    i < t.nodes.size := (Formula.laid_of_has f h).lt

theorem Formula.Has.getElem {t : Tree} {node : TreeNode} {nodes : List TreeNode} {i : Nat}
    (h : Has t i (node :: nodes)) (hi : i < t.nodes.size) : t.nodes[i] = node := by
  simpa [Resolution.Tree.node, hi] using h.head.2

/-- **The nodes of a formula are a tree.** -/
theorem Formula.walk_of_has {t : Tree} : ∀ (f : Formula) {parent i : Nat}
    (h : Has t i (f.layout parent i)), ∃ part, walk t.nodes parent i h.lt = .ok part ∧
      part.next = i + f.size
  | .leaf, parent, i, h => by
    have hn := Has.getElem h h.lt
    rw [walk]
    simp [hn, size]
  | .not a, parent, i, h | .loop a, parent, i, h => by
    have hn := Has.getElem h h.lt
    have ha : Has t (i + 1) (a.layout i (i + 1)) := h.tail
    obtain ⟨l, hw, hnext⟩ := a.walk_of_has ha
    rw [walk]
    simp only [hn, ne_eq, not_true_eq_false, if_false, if_true,
      enter_eq (Nat.succ_pos i) ha.lt rfl, hw, bind, Except.bind]
    exact ⟨_, rfl, by rw [hnext, size]; omega⟩
  | .and a b, parent, i, h | .or a b, parent, i, h | .both a b, parent, i, h => by
    have hn := Has.getElem h h.lt
    have ha : Has t (i + 1) (a.layout i (i + 1)) := h.tail.left
    have hb : Has t (i + 1 + a.size) (b.layout i (i + 1 + a.size)) := by
      simpa only [length_layout] using h.tail.right
    obtain ⟨l, hwl, hnext⟩ := a.walk_of_has ha
    obtain ⟨r, hwr, hend⟩ := b.walk_of_has hb
    obtain ⟨part, hpart, hp⟩ := walk_two ha.lt hb.lt hwl hnext hwr
    rw [walk]
    simp only [hn, ne_eq, not_true_eq_false, if_false, show i + 1 + a.size ≠ 0 by omega]
    exact ⟨part, hpart, by rw [hp, hend, size]; omega⟩

/-- The layout of a formula is accepted as a tree. -/
theorem Formula.ofNodes_layout (f : Formula) :
    ∃ t, Tree.ofNodes (f.layout 0 0).toArray = .ok t := by
  have hhas : Has ⟨(f.layout 0 0).toArray, #[]⟩ 0 (f.layout 0 0) := fun k _ => by
    rw [Nat.zero_add]
    exact List.getElem?_toArray
  obtain ⟨part, hw, hnext⟩ := f.walk_of_has hhas
  have hsize : (f.layout 0 0).toArray.size = f.size := by
    rw [List.size_toArray, length_layout]
  rw [Tree.ofNodes, dif_pos hhas.lt]
  refine ⟨⟨(f.layout 0 0).toArray, part.ends.toArray⟩, ?_⟩
  rw [hw]
  exact if_pos (by rw [hnext, hsize, Nat.zero_add])

/-! ## 8. Plans -/

/-- What comes of compiling some expressions. -/
theorem compileAll_cons (e : Expr) (rest : List Expr) :
    match compileAll kit (e :: rest) with
    | .ok _ => Expr.AllFormed kit [Variable.root] (e :: rest)
    | .error err => ¬ Expr.AllFormed kit [Variable.root] (e :: rest) ∧ err.OfExpr := by
  have h := @asks_batch kit e rest [Variable.root] ⟨0, 0, [⟨.root, .empty, []⟩]⟩ rfl
  unfold compileAll
  split at h
  · next r d heq =>
    obtain ⟨f, buckets⟩ := r
    obtain ⟨t, ht⟩ := f.ofNodes_layout
    rw [heq]
    simp only [bind, Except.bind, ht]
    exact h.1
  · next e heq =>
    rw [heq]
    exact h

/-- **Expressions have a plan if and only if** there are some and each is well-formed where the
    document is bound. -/
theorem compileAll_isOk (kit : Toolkit) (es : List Expr) :
    (∃ p, compileAll kit es = .ok p) ↔ es ≠ [] ∧ Expr.AllFormed kit [Variable.root] es := by
  cases es with
  | nil => exact ⟨nofun, fun h => absurd rfl h.1⟩
  | cons e rest =>
    have h := @compileAll_cons kit e rest
    split at h
    · next p hp => exact ⟨fun _ => ⟨List.cons_ne_nil e rest, h⟩, fun _ => ⟨p, hp⟩⟩
    · next err herr =>
      rw [herr]
      exact ⟨nofun, fun h' => absurd h'.2 h.1⟩

/-- A single expression has a plan if and only if it is well-formed. -/
theorem compile_isOk (kit : Toolkit) (e : Expr) :
    (∃ p, compile kit e = .ok p) ↔ e.Formed kit [Variable.root] := by
  rw [compile, compileAll_isOk]
  simp [Expr.AllFormed]

/-- What is wrong is wrong in one of the expressions, unless there are none. -/
theorem compileAll_error {es : List Expr} {err : CompileError}
    (h : compileAll kit es = .error err) : es = [] ∧ err = .emptyBatch ∨ es ≠ [] ∧ err.OfExpr := by
  cases es with
  | nil =>
    cases h
    exact .inl ⟨rfl, rfl⟩
  | cons e rest =>
    have hcons := @compileAll_cons kit e rest
    rw [h] at hcons
    exact .inr ⟨List.cons_ne_nil e rest, hcons.2⟩

/-- **What compiles**: expressions have a plan if and only if there are some and each is well-formed
    where nothing but the document is bound, whatever variables are bound again within; and only of
    no expressions is it said that there are none. -/
theorem compileAll_accepts (kit : Toolkit) (es : List Expr) :
    ((∃ p, compileAll kit es = .ok p) ↔ es ≠ [] ∧ ∀ e ∈ es, e.Formed kit [Variable.root]) ∧
      (compileAll kit es = .error .emptyBatch ↔ es = []) := by
  refine ⟨by rw [compileAll_isOk, Expr.allFormed_iff], fun h => ?_, fun h => ?_⟩
  · rcases compileAll_error h with ⟨hnil, -⟩ | ⟨-, hexpr⟩
    · exact hnil
    · exact hexpr.elim
  · rw [h]
    rfl

end Plan

end Sift
