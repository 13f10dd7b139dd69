import Sift.Matcher
import Sift.Proofs.Walk.Loops

/-!
# Walks are safe

`Secure c s stall n` says of the handler of a node that it is safe whatever the document is: it
fails only where the document is to blame, never by a defect of the plan, and where it ends,
everything is known that the node and its children are there to find out.

`secure` shows it of every node that fits the tree and the slots. The proof is one induction over
the node; what a loop does with its elements, and an object with its members, goes from token to
token, and no document has more tokens than bytes.
-/

namespace Sift

open Resolution

variable {loops slots : Nat → Prop} {c : Course} {stall : Option Nat} {w w' : Walker}

/-- The document is to blame for an error, not the plan. -/
def MatchError.OfDocument (e : MatchError) : Prop := ∀ d, e ≠ .defect d

theorem ofToken_ofDocument {token : Token} {expected : Expected} :
    (MatchError.ofToken token expected).OfDocument := fun d h => by
  unfold MatchError.ofToken at h
  split at h <;> cases h

/-- What is known of a node's bucket stays known while the node is handled. -/
theorem Moves.known_of_node {n : Node} (hn : n.Fits c stall) (ht : w.state.tree = c.tree)
    (hm : Moves (· ∈ n.loopBuckets) slots w w') {b : Nat} (hb : b ∈ n.buckets) (hk : w.Known b) :
    w'.Known b := by
  refine hm.known_of_known hk fun i hi => ?_
  rw [ht]
  exact hn.apart hi hb

/-- What is known of a bucket above which nothing is marked is a value. -/
theorem Walker.Fit.value_of_known (h : w.Fit c) {b : Nat} (hk : w.Known b) (ht : c.Top b) :
    ∃ v, w.state.get b = .value v := by
  cases hm : w.state.get b with
  | unknown => exact absurd hm hk
  | value v => exact ⟨v, rfl⟩
  | resolved =>
    obtain ⟨i, v, hbelow, hv⟩ := h.good.resolved b hm
    rw [h.tree] at hbelow
    obtain ⟨hkind, hmarked⟩ := ht i hbelow
    exact absurd (h.good.barrier i v (by rw [h.tree]; exact hkind) hv) hmarked

namespace Walk

variable {α : Type} {s : Setting} {F : MatchError → Prop} {m : Walk α} {Q : α → Walker → Prop}
  {S : Walker → Prop}

/-! ## 1. Reading any document -/

/-- A token has been read that lies ahead. -/
structure Reads (w : Walker) (token : Token) (w' : Walker) : Prop extends OnlyReads w w' where
  ahead : w.cursor.position ≤ token.offset
  passed : token.offset ≤ w'.cursor.position
  lt : token.kind ≠ .finish → token.offset < w'.cursor.position

/-- **A step comes to a token that lies ahead.** -/
theorem safe_token (hfit : w.Fit c) :
    Safe c s MatchError.OfDocument loops slots w step (fun token w' => Reads w token w') S := by
  refine (safe_step hfit fun _ _ _ d he => by cases he).mono (fun token w' _ _ h => ?_)
    fun _ _ h => h
  obtain ⟨-, -, hp, ho, hk⟩ := Cursor.step_bounds h.2 hfit.inside
  exact ⟨h.1, ho, by rw [hp]; exact Nat.le_add_right _ _, fun hne => by rw [hp]; exact hk hne⟩

theorem safe_skip (hfit : w.Fit c) :
    Safe c s MatchError.OfDocument loops slots w skipContainer (fun _ w' =>
      OnlyReads w w' ∧ w.cursor.position < w'.cursor.position) S := by
  refine (safe_skipContainer hfit fun _ _ _ d he => by cases he).mono (fun _ w' _ _ h => ?_)
    fun _ _ h => h
  obtain ⟨ho, stop, h⟩ := h
  exact ⟨ho, (Cursor.skipContainer_bounds h hfit.inside).2.2⟩

theorem safe_unexpected {token : Token} {expected : Expected} :
    Safe c s MatchError.OfDocument loops slots w (unexpected token expected : Walk α) Q S :=
  safe_fail ofToken_ofDocument

theorem safe_skipValue {token : Token} (hfit : w.Fit c) :
    Safe c s MatchError.OfDocument loops slots w (skipValue token) (fun _ w' =>
      OnlyReads w w' ∧ w.cursor.position ≤ w'.cursor.position ∧ token.kind ≠ .finish) S := by
  unfold skipValue
  split
  · next ho =>
    refine (safe_skip hfit).mono (fun _ w' _ _ h => ⟨h.1, Nat.le_of_lt h.2, ?_⟩) fun _ _ h => h
    intro hk
    rw [hk] at ho
    cases ho
  · split
    · next hs =>
      refine safe_pure hfit ⟨.refl _, Nat.le_refl _, fun hk => ?_⟩
      rw [hk] at hs
      cases hs
    · exact safe_unexpected

/-- Passing a value goes past the place where it starts. -/
theorem safe_passAt {position : Nat} (hfit : w.Fit c) (h : position ≤ c.data.length) :
    Safe c s MatchError.OfDocument loops slots w (passAt position) (fun _ w' =>
      OnlyReads w w' ∧ position < w'.cursor.position) S := by
  refine (safe_seek hfit h).bind fun _ w₁ _ hfit₁ h₁ => ?_
  refine (safe_token hfit₁).bind fun token w₂ _ hfit₂ h₂ => ?_
  refine (safe_skipValue hfit₂).mono (fun _ w₃ _ _ h₃ => ?_) fun _ _ h => h
  obtain ⟨hs₃, hp₃, hf⟩ := h₃
  have := h₂.lt hf
  have := h₂.ahead
  exact ⟨(h₁.1.trans h₂.toOnlyReads).trans hs₃, by omega⟩

/-- What follows a part of a container. -/
theorem safe_nextPart {closing : TokenKind} {e : Expected} (hfit : w.Fit c) :
    Safe c s MatchError.OfDocument loops slots w (nextPart closing e) (fun r w' =>
      OnlyReads w w' ∧ w.cursor.position ≤ w'.cursor.position ∧ ∀ t, r = some t →
        w.cursor.position ≤ t.offset ∧ t.offset ≤ w'.cursor.position ∧
          (t.kind ≠ .finish → t.offset < w'.cursor.position)) S := by
  refine (safe_token hfit).bind fun t w₁ _ hfit₁ h₁ => ?_
  have hpos := Nat.le_trans h₁.ahead h₁.passed
  split
  · refine (safe_token hfit₁).bind fun t' w₂ _ hfit₂ h₂ => ?_
    have hpos₂ := Nat.le_trans hpos h₂.ahead
    refine safe_pure hfit₂ ⟨h₁.toOnlyReads.trans h₂.toOnlyReads, Nat.le_trans hpos₂ h₂.passed, ?_⟩
    rintro _ ⟨⟩
    exact ⟨hpos₂, h₂.passed, h₂.lt⟩
  · split
    · exact safe_pure hfit₁ ⟨h₁.toOnlyReads, hpos, nofun⟩
    · exact safe_unexpected

/-! ## 2. What is shown of a node -/

/-- The walk comes back to where it was. -/
def SamePlace (w w' : Walker) : Prop := w'.cursor.position = w.cursor.position

/-- Two parts of a walk that both come back to where they were. -/
theorem Safe.bind_here {β : Type} {P : α → Walker → Prop} {R : β → Walker → Prop}
    {f : α → Walk β}
    (h : Safe c s F loops slots w m (fun a w' => P a w' ∧ SamePlace w w') (SamePlace w))
    (hf : ∀ a w', Moves loops slots w w' → w'.Fit c → P a w' →
      Safe c s F loops slots w' (f a) (fun b w'' => R b w'' ∧ SamePlace w' w'') (SamePlace w')) :
    Safe c s F loops slots w (m >>= f) (fun b w' => R b w' ∧ SamePlace w w') (SamePlace w) :=
  h.bind fun a w' hm hfit hp => (hf a w' hm hfit hp.1).mono
    (fun _ _ _ _ h => ⟨h.1, h.2.trans hp.2⟩) fun _ _ h => h.trans hp.2

/-- **The handler of a node is safe.** -/
structure Secure (c : Course) (s : Setting) (stall : Option Nat) (n : Node) : Prop where
  read : ∀ w token, w.Fit c → w.state.stall = stall →
    (token.kind ≠ .finish → token.offset < w.cursor.position) →
    Safe c s MatchError.OfDocument (· ∈ n.loopBuckets) (· ∈ n.slots) w (n.halting.read token)
      (fun _ w' => token.offset < w'.cursor.position ∧ w.cursor.position ≤ w'.cursor.position ∧
        (token.kind.isScalar = true → SamePlace w w') ∧
        (token.kind = .arrayStart → ∀ l ∈ n.loops, w'.Known l.bucket) ∧
        (token.kind = .objectStart → ∀ child ∈ n.children, ∀ b ∈ child.2.buckets, w'.Known b))
      (fun _ => token.kind.isScalar = false)
  finish : ∀ w token v, w.Fit c → w.state.stall = stall → token.offset < w.cursor.position →
    (token.kind = .arrayStart → ∀ l ∈ n.loops, w.Known l.bucket) →
    (token.kind = .objectStart → ∀ child ∈ n.children, ∀ b ∈ child.2.buckets, w.Known b) →
    Safe c s MatchError.OfDocument (· ∈ n.loopBuckets) (· ∈ n.slots) w (n.halting.finish token v)
      (fun _ w' => (∀ b ∈ n.buckets, w'.Known b) ∧ SamePlace w w') (SamePlace w)
  missing : ∀ w, w.Fit c → w.state.stall = stall →
    Safe c s MatchError.OfDocument (· ∈ n.loopBuckets) (· ∈ n.slots) w n.halting.missing
      (fun _ w' => (∀ b ∈ n.buckets, w'.Known b) ∧ SamePlace w w') (SamePlace w)

variable {n : Node}

theorem Safe.of_child {child : String × Node} (hc : child ∈ n.children)
    (h : Safe c s F (· ∈ child.2.loopBuckets) (· ∈ child.2.slots) w m Q S) :
    Safe c s F (· ∈ n.loopBuckets) (· ∈ n.slots) w m Q S :=
  h.widen (fun _ hi => Node.mem_loopBuckets.mpr (.inr ⟨child, hc, hi⟩))
    fun _ hi => Node.mem_slots.mpr (.inr (.inr ⟨child, hc, hi⟩))

theorem Safe.of_loop {l : Loop} (hl : l ∈ n.allLoops)
    (h : Safe c s F (· = l.bucket) (· ∈ l.body.slots) w m Q S) :
    Safe c s F (· ∈ n.loopBuckets) (· ∈ n.slots) w m Q S :=
  h.widen (fun _ hi => Node.mem_loopBuckets.mpr (.inl ⟨l, hl, hi.symm⟩))
    fun _ hi => Node.mem_slots.mpr (.inr (.inl ⟨l, hl, hi⟩))

/-! ## 3. What is done once a value has been read -/

/-- Tests of a node. -/
theorem safe_tests {tests : List Test} {v : Value} (hn : n.Fits c stall)
    (ht : ∀ t ∈ tests, t ∈ n.allTests) (hfit : w.Fit c) (hst : w.state.stall = stall) :
    Safe c s F (· ∈ n.loopBuckets) (· ∈ n.slots) w (tests.forM (test v))
      (fun _ w' => (∀ t ∈ tests, w'.Known t.bucket) ∧ SamePlace w w') (SamePlace w) := by
  refine safe_forM hfit rfl (fun t hm w₁ hm₁ hfit₁ hp => ?_) fun t hm w₁ w₂ hm₁ hm₂ hk => ?_
  · obtain ⟨hb, hr⟩ := hn.tests (ht t hm)
    subst hst
    refine (safe_test hfit₁ (hm₁.markable hb) hr).mono (fun _ _ _ _ h => ⟨h.1, ?_⟩) fun _ _ h => ?_
    · rw [SamePlace, h.2.cursor_eq, hp]
    · rw [SamePlace, h.cursor_eq, hp]
  · exact hm₂.known_of_node hn (hm₁.tree.trans hfit.tree)
      (Node.mem_buckets.mpr (.inl ⟨t, ht t hm, rfl⟩)) hk

/-- Loops that have no array. -/
theorem safe_failLoops (hn : n.Fits c stall) (hfit : w.Fit c) (hst : w.state.stall = stall) :
    Safe c s F (· ∈ n.loopBuckets) (· ∈ n.slots) w (failLoops (n.loops.map Loop.halting))
      (fun _ w' => (∀ l ∈ n.loops, w'.Known l.bucket) ∧ SamePlace w w') (SamePlace w) := by
  unfold failLoops
  rw [List.forM_eq_forM, List.forM_map]
  simp only [Loop.halting_bucket]
  refine safe_forM (f := fun l : Loop => markIfUnknown l.bucket false) hfit rfl
    (fun l hl w₁ hm₁ hfit₁ hp => ?_) fun l hl w₁ w₂ hm₁ hm₂ hk => ?_
  · have hb := (hn.loop (List.mem_append_left _ hl)).1.bucket
    subst hst
    refine (safe_markIfUnknown hfit₁ (hm₁.markable hb)).mono (fun _ _ _ _ h => ⟨h.1, ?_⟩)
      fun _ _ h => ?_
    · rw [SamePlace, h.2.cursor_eq, hp]
    · rw [SamePlace, h.cursor_eq, hp]
  · exact hm₂.known_of_node hn (hm₁.tree.trans hfit.tree)
      (Node.mem_buckets.mpr (.inr (.inl ⟨l, List.mem_append_left _ hl, rfl⟩))) hk

/-- Members that are not there. -/
theorem safe_missingAll (hn : n.Fits c stall)
    (hc : ∀ child ∈ n.children, Secure c s stall child.2) (hfit : w.Fit c)
    (hst : w.state.stall = stall) :
    Safe c s MatchError.OfDocument (· ∈ n.loopBuckets) (· ∈ n.slots) w
      (missingAll (n.children.map fun child => (child.1, child.2.halting)))
      (fun _ w' => (∀ child ∈ n.children, ∀ b ∈ child.2.buckets, w'.Known b) ∧ SamePlace w w')
      (SamePlace w) := by
  unfold missingAll
  rw [List.forM_eq_forM, List.forM_map]
  refine safe_forM (f := fun child : String × Node => child.2.halting.missing) hfit rfl
    (fun child hm w₁ hm₁ hfit₁ hp => ?_) fun child hm w₁ w₂ hm₁ hm₂ hk b hb => ?_
  · refine (((hc child hm).missing w₁ hfit₁ (hm₁.stall.trans hst)).of_child hm).mono
      (fun _ _ _ _ h => ⟨h.1, h.2.trans hp⟩) fun _ _ h => h.trans hp
  · exact hm₂.known_of_node hn (hm₁.tree.trans hfit.tree)
      (Node.mem_buckets.mpr (.inr (.inr ⟨child, hm, hb⟩))) (hk b hb)

/-! ## 4. Loops -/

theorem Secure.handle (hs : Secure c s stall n) {t : Token} (hfit : w.Fit c)
    (hst : w.state.stall = stall) (ho : t.kind ≠ .finish → t.offset < w.cursor.position) :
    Safe c s MatchError.OfDocument (· ∈ n.loopBuckets) (· ∈ n.slots) w (n.halting.handle t)
      (fun _ w' => t.offset < w'.cursor.position ∧ w.cursor.position ≤ w'.cursor.position ∧
        ∀ b ∈ n.buckets, w'.Known b)
      (fun w' => t.kind.isScalar = true → SamePlace w w') := by
  refine Safe.bind ((hs.read w t hfit hst ho).mono (fun _ _ _ _ h => h) fun _ _ h hk => ?_)
    fun v w₁ hm₁ hfit₁ h₁ => ?_
  · rw [h] at hk
    cases hk
  · obtain ⟨hlt, hle, hsame, hloops, hchildren⟩ := h₁
    refine (hs.finish w₁ t v hfit₁ (hm₁.stall.trans hst) hlt hloops hchildren).mono
      (fun _ w₂ _ _ h => ⟨?_, ?_, h.1⟩) fun w₂ _ h hk => h.trans (hsame hk)
    · rw [h.2]
      exact hlt
    · rw [h.2]
      exact hle

section Loop

variable {l : Loop} {w₁ : Walker} {k : Nat} {first : Token}

/-- Where a loop stands when the first token of an element has been read, and there may be `k`
    more. -/
structure Turn (c : Course) (l : Loop) (w : Walker) (k : Nat) (first : Token) (w' : Walker) :
    Prop where
  loop : InLoop c l w w'
  start : w.cursor.position ≤ first.offset
  passed : first.offset ≤ w'.cursor.position
  lt : first.kind ≠ .finish → first.offset < w'.cursor.position
  fuel : c.data.length < k + first.offset

/-- Where a loop stands when it has come to an answer. -/
structure Ended (c : Course) (l : Loop) (w : Walker) (v : Verdict) (w' : Walker) : Prop where
  loop : InLoop c l w w'
  decided : ∀ t, v.decider = some t → w.cursor.position ≤ t.offset ∧ t.offset ≤ c.data.length
  passed : v.decider = none → w.cursor.position ≤ w'.cursor.position

/-- The body of an element is read, or its value is found on the way. -/
theorem meets_body (h : Enters c l w) (hb : Secure c s (some l.bucket) l.body)
    (hi : InLoop c l w w₁) (ho : first.kind ≠ .finish → first.offset < w₁.cursor.position) :
    Meets s w₁ (settles (l.body.halting.handle first)) (fun early w₂ => InLoop c l w w₂ ∧
      (∃ v, w₂.state.get (c.tree.node l.bucket).left = .value v) ∧
      ((early && !first.kind.isScalar) = false → first.offset < w₂.cursor.position))
      (Fails MatchError.OfDocument w) := by
  refine meets_settles (Meets.mono (hb.handle hi.fit hi.stall ho) (fun _ w₂ h₂ => ?_)
    fun e w₂ h₂ => ?_)
  · obtain ⟨hm₂, hfit₂, hlt, -, hk⟩ := h₂
    have hi₂ := hi.moves h hm₂ hfit₂ fun _ h => h
    exact ⟨hi₂, hi₂.body_value h (hi₂.body_known h hk), fun _ => hlt⟩
  · cases e with
    | failed e => exact ⟨h₂.1, hi.extends_of h h₂.2⟩
    | settled =>
      obtain ⟨hm₂, hfit₂, hset, hsame⟩ := h₂
      have hi₂ := hi.moves h hm₂ hfit₂ fun _ h => h
      refine ⟨hi₂, hi₂.body_value h (hi₂.body_settled hset), fun hk => ?_⟩
      rw [Bool.true_and, Bool.not_eq_false'] at hk
      rw [hsame hk]
      refine ho fun he => ?_
      rw [he] at hk
      cases hk

/-- An element is passed, whether it has been read whole or not. -/
theorem meets_passRest (h : Enters c l w) {early : Bool} (hi : InLoop c l w w₁)
    (hlen : first.offset ≤ c.data.length)
    (hp : (early && !first.kind.isScalar) = false → first.offset < w₁.cursor.position) :
    Meets s w₁ (passRest early first)
      (fun _ w₂ => InLoop c l w w₂ ∧ first.offset < w₂.cursor.position)
      (Fails MatchError.OfDocument w) := by
  unfold passRest
  split
  · exact (hi.run h (safe_passAt hi.fit hlen)).mono (fun _ _ h₂ => ⟨h₂.1, h₂.2.2⟩) fun _ _ h => h
  · next hn => exact meets_pure ⟨hi, hp (Bool.eq_false_iff.mpr hn)⟩

/-- What follows an element is the end of the array or another element. -/
theorem meets_nextElement (h : Enters c l w) (hi : InLoop c l w w₁)
    (hw : w.cursor.position ≤ w₁.cursor.position)
    (hf : c.data.length < k + w₁.cursor.position) {e : Expected} :
    Meets s w₁ (nextPart .arrayEnd e) (fun r w₂ => match r with
      | some next => Turn c l w k next w₂
      | none => InLoop c l w w₂ ∧ w.cursor.position ≤ w₂.cursor.position)
      (Fails MatchError.OfDocument w) := by
  refine (hi.run h (safe_nextPart hi.fit)).mono (fun r w₂ h₂ => ?_) fun _ _ h => h
  obtain ⟨hi₂, -, hle, hnext⟩ := h₂
  cases r with
  | none => exact ⟨hi₂, Nat.le_trans hw hle⟩
  | some next =>
    obtain ⟨ho, hp, hlt⟩ := hnext next rfl
    exact ⟨hi₂, Nat.le_trans hw ho, hp, hlt, by omega⟩

/-- **One element.** -/
theorem meets_element (h : Enters c l w) (hb : Secure c s (some l.bucket) l.body) {any : Bool}
    (ht : Turn c l w (k + 1) first w₁) :
    Meets s w₁ (element l.bucket (c.tree.node l.bucket).left l.mode l.locals l.body.halting
        (first, any))
      (fun r w₂ => match r with
        | .inl next => Turn c l w k next.1 w₂
        | .inr v => Ended c l w v w₂) (Fails MatchError.OfDocument w) := by
  refine (meets_beginElement ht.loop h).bind fun _ w₂ h₂ => ?_
  obtain ⟨hi₂, hbegun⟩ := h₂
  refine (meets_body h hb hi₂ (by rw [hbegun.cursor]; exact ht.lt)).bind fun early w₃ h₃ => ?_
  obtain ⟨hi₃, ⟨v, hv⟩, hp₃⟩ := h₃
  refine (meets_judge hv).bind fun satisfied w₄ h₄ => ?_
  obtain ⟨-, rfl⟩ := h₄
  have hi₄ := hi₃.note (e := .judged l.bucket (.value v)) ⟨h.within_self, v, rfl⟩
  have hlen : first.offset ≤ c.data.length := by
    have := ht.passed
    have := ht.loop.fit.inside
    rw [Cursor.Inside, ht.loop.fit.data] at this
    omega
  split
  · exact meets_pure ⟨hi₄, fun t he => by cases he; exact ⟨ht.start, hlen⟩, fun h => by cases h⟩
  · refine (meets_passRest h hi₄ hlen hp₃).bind fun _ w₅ h₅ => ?_
    have := ht.start
    have := ht.fuel
    refine (meets_nextElement h h₅.1 (k := k) (by omega) (by omega)).bind fun r w₆ h₆ => ?_
    cases r with
    | some next => exact meets_pure h₆
    | none => exact meets_pure ⟨h₆.1, fun _ h => (by cases h), fun _ => h₆.2⟩

/-- The first token of an array, if it has an element. -/
theorem meets_firstElement (h : Enters c l w) (hbound : s.bound = c.data.length + 1)
    (hi : InLoop c l w w₁) (hw : w₁.cursor = w.cursor) :
    Meets s w₁ step (fun first w₂ => Turn c l w s.bound first w₂)
      (Fails MatchError.OfDocument w) := by
  refine (hi.run h (safe_token hi.fit)).mono (fun first w₂ h₂ => ?_) fun _ _ h => h
  have hahead := h₂.2.ahead
  rw [hw] at hahead
  exact ⟨h₂.1, hahead, h₂.2.passed, h₂.2.lt, by omega⟩

/-- The elements of an array. -/
theorem meets_elements (h : Enters c l w) (hb : Secure c s (some l.bucket) l.body)
    (hbound : s.bound = c.data.length + 1) (hi : InLoop c l w w₁)
    (hw : w₁.cursor = w.cursor) :
    Meets s w₁ (elements l.bucket (c.tree.node l.bucket).left l.mode l.locals l.body.halting)
      (Ended c l w) (Fails MatchError.OfDocument w) := by
  refine (meets_firstElement h hbound hi hw).bind fun first w₂ ht => ?_
  split
  · exact meets_pure ⟨ht.loop, nofun, fun _ => Nat.le_trans ht.start ht.passed⟩
  · refine meets_repeatedly (meets_iterate
      (I := fun k a w' => Turn c l w k a.1 w') (fun k a w' ht => ?_) (fun a w' ht => ?_) ht)
    · refine (meets_element h hb ht).mono (fun r w'' hr => ?_) fun _ _ h => h
      cases r with
      | inl next => exact hr
      | inr v => exact hr
    · have := ht.fuel
      have := ht.passed
      have := ht.loop.fit.inside
      rw [Cursor.Inside, ht.loop.fit.data] at this
      omega

/-- The rest of the array is passed after an element that has decided the loop. -/
theorem safe_passArray {decider : Option Token} (hfit : w.Fit c)
    (h : ∀ t, decider = some t → t.offset ≤ c.data.length) :
    Safe c s MatchError.OfDocument loops slots w (passArray decider) (fun _ w' =>
      OnlyReads w w' ∧ (decider = none → w' = w) ∧
        ∀ t, decider = some t → t.offset < w'.cursor.position) S := by
  cases decider with
  | none => exact safe_pure hfit ⟨.refl _, fun _ => rfl, nofun⟩
  | some t =>
    refine (safe_passAt hfit (h t rfl)).bind fun _ w₁ _ hfit₁ h₁ => ?_
    refine (safe_skip hfit₁).mono (fun _ w₂ _ _ h₂ => ⟨h₁.1.trans h₂.1, nofun, ?_⟩) fun _ _ h => h
    rintro _ ⟨⟩
    exact Nat.lt_trans h₁.2 h₂.2

/-- **Running a loop** answers it, and goes forward. -/
theorem safe_runLoop (h : Enters c l w) (hb : Secure c s (some l.bucket) l.body)
    (hbound : s.bound = c.data.length + 1) :
    Safe c s MatchError.OfDocument (· = l.bucket) (· ∈ l.body.slots) w l.halting.run
      (fun _ w' => w'.Known l.bucket ∧ w.cursor.position ≤ w'.cursor.position)
      (fun _ => True) := by
  rw [Loop.halting_eq]
  refine Meets.bind (Q := fun outer w₁ => outer = w.state.stall ∧
    w₁ = { w with state := w.state.withStall (some l.bucket) })
    (meets_modifyGet ⟨rfl, rfl⟩) fun outer w₁ h₁ => ?_
  obtain ⟨rfl, hw₁⟩ := h₁
  have hi₁ := h.enter
  rw [← hw₁] at hi₁
  refine (meets_bodyOf hi₁ h).bind fun body w₂ h₂ => ?_
  obtain ⟨rfl, rfl⟩ := h₂
  refine Meets.bind ((meets_elements h hb hbound hi₁ (by rw [hw₁])).mono (fun _ _ h => h)
    fun e _ h => ?_) fun verdict w₃ h₃ => ?_
  · cases e with
    | settled => exact h.elim
    | failed e => exact h
  · refine Meets.bind (meets_modify (Q := fun _ w₄ => w₄ = _) rfl) fun _ w₄ hw₄ => ?_
    obtain ⟨hm₄, hfit₄, hu₄⟩ := h₃.loop.leave h hw₄
    have hcursor : w₄.cursor = w₃.cursor := by rw [hw₄]
    refine Safe.after hm₄ ?_
    have hmark : w₄.Markable c l.bucket := hm₄.markable h.loop.bucket
    refine Safe.bind ((safe_mark hfit₄ hmark hu₄).mono (fun _ _ _ _ h => h) fun _ _ _ => trivial)
      fun _ w₅ _ hfit₅ h₅ => ?_
    refine (safe_passArray hfit₅ fun t ht => (h₃.decided t ht).2).mono (fun _ w₆ _ _ h₆ => ?_)
      fun _ _ h => h
    obtain ⟨hs₆, hnone, hsome⟩ := h₆
    refine ⟨by rw [Walker.Known, hs₆.state]; exact h₅.known, ?_⟩
    cases hd : verdict.decider with
    | some t => exact Nat.le_of_lt (Nat.lt_of_le_of_lt (h₃.decided t hd).1 (hsome t hd))
    | none =>
      rw [hnone hd, h₅.cursor, hcursor]
      exact h₃.passed hd

end Loop

/-- What a loop of a node needs to be run. -/
theorem enters_loop {l : Loop} (hn : n.Fits c stall) (hl : l ∈ n.allLoops) (hfit : w.Fit c)
    (hst : w.state.stall = stall) (hu : w.state.get l.bucket = .unknown) : Enters c l w := by
  obtain ⟨hloop, hbody, hlocals⟩ := hn.loop hl
  subst hst
  exact ⟨hfit, hloop, hbody, hlocals, hu⟩

/-- The loops of a node over its array. -/
theorem safe_runLoops (hn : n.Fits c stall)
    (hb : ∀ l ∈ n.allLoops, Secure c s (some l.bucket) l.body)
    (hbound : s.bound = c.data.length + 1) (hfit : w.Fit c) (hst : w.state.stall = stall) :
    Safe c s MatchError.OfDocument (· ∈ n.loopBuckets) (· ∈ n.slots) w
      (runLoops (n.loops.map Loop.halting))
      (fun _ w' => (∀ l ∈ n.loops, w'.Known l.bucket) ∧
        w.cursor.position ≤ w'.cursor.position) (fun _ => True) := by
  refine safe_get_bind ?_
  dsimp only
  rw [List.forM_eq_forM, List.forM_map]
  refine safe_forM (K := fun w' => w.cursor.position ≤ w'.cursor.position) hfit (Nat.le_refl _)
    (fun l hl w₁ hm₁ hfit₁ hp => ?_) fun l hl w₁ w₂ hm₁ hm₂ hk => ?_
  · have hl' : l ∈ n.allLoops := List.mem_append_left _ hl
    have hlen : w.cursor.position ≤ c.data.length := hfit.data ▸ hfit.inside
    refine (safe_seek hfit₁ hlen).bind fun _ w₂ hm₂ hfit₂ h₂ => ?_
    have hst₂ : w₂.state.stall = stall := hm₂.stall.trans (hm₁.stall.trans hst)
    rw [Loop.halting_bucket]
    refine (safe_isUnknown hfit₂ (hn.loop hl').1.bucket.lt).bind fun r w₃ _ _ h₃ => ?_
    obtain ⟨rfl, hr⟩ := h₃
    split
    · next ht =>
      refine (safe_runLoop (enters_loop hn hl' hfit₂ hst₂ (hr.mp ht)) (hb l hl') hbound).of_loop hl'
        |>.mono (fun _ w₄ _ _ h₄ => ⟨h₄.1, ?_⟩) fun _ _ h => h
      rw [← h₂.2]
      exact h₄.2
    · next hf =>
      refine (safe_skip hfit₂).mono (fun _ w₄ _ _ h₄ => ⟨?_, ?_⟩) fun _ _ h => h
      · rw [Walker.Known, h₄.1.state]
        exact fun hu => hf (hr.mpr hu)
      · rw [← h₂.2]
        exact Nat.le_of_lt h₄.2
  · exact hm₂.known_of_node hn (hm₁.tree.trans hfit.tree)
      (Node.mem_buckets.mpr (.inr (.inl ⟨l, List.mem_append_left _ hl, rfl⟩))) hk

/-- A part of a walk, after which the walk goes where it is told. -/
theorem safe_restoring {part : Walk Unit} {position : Nat} {P : Walker → Prop}
    (h : Safe c s F loops slots w part (fun _ => P) S)
    (hp : ∀ w w', OnlyReads w w' → P w → P w') (hs : ∀ w w', OnlyReads w w' → S w → S w')
    (hlen : position ≤ c.data.length) :
    Safe c s F loops slots w (restoring part (seek position))
      (fun _ w' => P w' ∧ w'.cursor.position = position)
      (fun w' => S w' ∧ w'.cursor.position = position) := by
  have back {w₁ : Walker} (hm : Moves loops slots w w₁) (hfit : w₁.Fit c) :
      Moves loops slots w { w₁ with cursor := w₁.cursor.seek position } ∧
        Walker.Fit c { w₁ with cursor := w₁.cursor.seek position } ∧
        OnlyReads w₁ { w₁ with cursor := w₁.cursor.seek position } ∧
        (w₁.cursor.seek position).position = position := by
    obtain ⟨hs, hfit', hpos⟩ := sought position hfit hlen
    exact ⟨hm.trans (.of_cursor [] rfl rfl rfl (by simp)), hfit', ⟨hs, [], rfl, by simp⟩, hpos⟩
  refine meets_restoring (Meets.mono h (fun _ w₁ h₁ => meets_seek ?_) fun e w₁ h₁ => meets_seek ?_)
  · obtain ⟨hm, hfit, ho, hpos⟩ := back h₁.1 h₁.2.1
    exact ⟨hm, hfit, hp w₁ _ ho h₁.2.2, hpos⟩
  · cases e with
    | failed e => exact h₁
    | settled =>
      obtain ⟨hm, hfit, ho, hpos⟩ := back h₁.1 h₁.2.1
      exact ⟨hm, hfit, h₁.2.2.1, hs w₁ _ ho h₁.2.2.2, hpos⟩

/-- A loop that waits, over what its slot holds. -/
theorem safe_runOver {l : Loop} {found : Option Span} (h : Enters c l w)
    (hb : Secure c s (some l.bucket) l.body) (hbound : s.bound = c.data.length + 1)
    (hin : ∀ span, found = some span → span.isInside c.data = true) :
    Safe c s MatchError.OfDocument (· = l.bucket) (· ∈ l.body.slots) w
      (runOver found l.halting) (fun _ w' => w'.Known l.bucket ∧ SamePlace w w') (SamePlace w) := by
  refine safe_get_bind ?_
  rw [Loop.halting_bucket]
  have none_found : Safe c s MatchError.OfDocument (· = l.bucket) (· ∈ l.body.slots) w
      (mark l.bucket false) (fun _ w' => w'.Known l.bucket ∧ SamePlace w w') (SamePlace w) :=
    (safe_mark h.fit h.loop.bucket h.unknown).mono
      (fun _ _ _ _ hm => ⟨hm.known, by rw [SamePlace, hm.cursor]⟩)
      fun _ _ hm => by rw [SamePlace, hm.cursor]
  cases found with
  | none => exact none_found
  | some span =>
    dsimp only
    split
    · have hspan := hin span rfl
      rw [Span.isInside_iff, Span.stop] at hspan
      have hlen : w.cursor.position ≤ c.data.length := h.fit.data ▸ h.fit.inside
      refine (safe_seek h.fit (by omega)).bind fun _ w₁ hm₁ hfit₁ h₁ => ?_
      have h' : Enters c l w₁ :=
        ⟨hfit₁, by rw [h₁.1.state]; exact h.loop, h.body, h.locals, by rw [h₁.1.state]; exact h.unknown⟩
      refine (safe_restoring (P := fun w' => w'.Known l.bucket) (S := fun _ => True)
        ((safe_runLoop h' hb hbound).mono (fun _ _ _ _ h => h.1) fun _ _ h => h)
        (fun w₂ w₃ hs hk => ?_) (fun _ _ _ h => h) hlen).mono (fun _ _ _ _ h => h) fun _ _ h => h.2
      rw [Walker.Known, hs.state]
      exact hk
    · exact none_found

/-- **What waits until the value of a node has been read.** -/
theorem safe_after (hn : n.Fits c stall)
    (hb : ∀ l ∈ n.allLoops, Secure c s (some l.bucket) l.body)
    (hbound : s.bound = c.data.length + 1) (hfit : w.Fit c) (hst : w.state.stall = stall) :
    Safe c s MatchError.OfDocument (· ∈ n.loopBuckets) (· ∈ n.slots) w
      (after n.afterTests (n.afterLoops.map fun l => (l.target, l.halting)))
      (fun _ w' => ((∀ t ∈ n.afterTests, w'.Known t.bucket) ∧
        ∀ l ∈ n.afterLoops, w'.Known l.bucket) ∧ SamePlace w w') (SamePlace w) := by
  refine (safe_tests hn (fun t ht => List.mem_append_right _ ht) hfit hst).bind
    fun _ w₁ hm₁ hfit₁ h₁ => ?_
  rw [List.forM_eq_forM, List.forM_map]
  refine (safe_forM (D := fun (l : Loop) w' => w'.Known l.bucket) (K := SamePlace w) hfit₁ h₁.2
    (fun l hl w₂ hm₂ hfit₂ hp => ?_) fun l hl w₂ w₃ hm₂ hm₃ hk => ?_).mono
    (fun _ w₂ hm₂ _ h₂ => ⟨⟨fun t ht => ?_, h₂.1⟩, h₂.2⟩) fun _ _ h => h
  · have hl' : l ∈ n.allLoops := List.mem_append_right _ hl
    have hst₂ : w₂.state.stall = stall := hm₂.stall.trans (hm₁.stall.trans hst)
    obtain ⟨i, htarget, hi⟩ := hn.target hl
    unfold runCaptured
    rw [Loop.halting_bucket]
    refine (safe_isUnknown hfit₂ (hn.loop hl').1.bucket.lt).bind fun r w₃ _ _ h₃ => ?_
    obtain ⟨rfl, hr⟩ := h₃
    split
    · next ht =>
      simp only [htarget]
      refine (safe_fetch hfit₂ hi).bind fun found w₄ hm₄ hfit₄ h₄ => ?_
      have h : Enters c l w₄ := enters_loop hn hl' hfit₄ (hm₄.stall.trans hst₂)
        (by rw [h₄.1.state]; exact hr.mp ht)
      have hp₄ : SamePlace w w₄ := by rw [SamePlace, h₄.1.cursor, hp]
      exact ((safe_runOver h (hb l hl') hbound h₄.2.2).of_loop hl').mono
        (fun _ _ _ _ h => ⟨h.1, h.2.trans hp₄⟩) fun _ _ h => h.trans hp₄
    · next hf => exact safe_pure hfit₂ ⟨fun hu => hf (hr.mpr hu), hp⟩
  · exact hm₃.known_of_node hn (hm₂.tree.trans (hm₁.tree.trans hfit.tree))
      (Node.mem_buckets.mpr (.inr (.inl ⟨l, List.mem_append_right _ hl, rfl⟩))) hk
  · exact hm₂.known_of_node hn (hm₁.tree.trans hfit.tree)
      (Node.mem_buckets.mpr (.inl ⟨t, List.mem_append_right _ ht, rfl⟩)) (h₁.1 t ht)

/-! ## 5. Objects -/

/-- The colon after a key, and the first token of the value. -/
theorem safe_memberStart {key : Token} (hfit : w.Fit c) :
    Safe c s MatchError.OfDocument loops slots w (memberStart key)
      (fun first w' => key.kind ≠ .finish ∧ Reads w first w') S := by
  unfold memberStart
  split
  · next hk =>
    refine (safe_token hfit).bind fun colon w₁ _ hfit₁ h₁ => ?_
    split
    · refine (safe_token hfit₁).mono (fun first w₂ _ _ h₂ => ⟨fun he => ?_, ?_⟩) fun _ _ h => h
      · rw [he] at hk
        cases hk
      · exact ⟨h₁.toOnlyReads.trans h₂.toOnlyReads,
          Nat.le_trans (Nat.le_trans h₁.ahead h₁.passed) h₂.ahead, h₂.passed, h₂.lt⟩
    · exact safe_unexpected
  · exact safe_unexpected

/-- The value of a member. -/
theorem safe_memberValue (hc : ∀ child ∈ n.children, Secure c s stall child.2) {key first : Token}
    (hfit : w.Fit c) (hst : w.state.stall = stall)
    (ho : first.kind ≠ .finish → first.offset < w.cursor.position) :
    Safe c s MatchError.OfDocument (· ∈ n.loopBuckets) (· ∈ n.slots) w
      (memberValue (n.children.map fun child => (child.1, child.2.halting)) key first)
      (fun _ w' => w.cursor.position ≤ w'.cursor.position) (fun _ => True) := by
  unfold memberValue
  rw [handlerOf?_eq]
  cases hh : (nameOf? key).bind fun name =>
      (n.children.find? (·.1 = name)).map fun child => child.2.halting with
  | none => exact (safe_skipValue hfit).mono (fun _ _ _ _ h => h.2.1) fun _ _ h => h
  | some handler =>
    obtain ⟨name, -, hname⟩ := Option.bind_eq_some_iff.mp hh
    obtain ⟨child, hfind, rfl⟩ := Option.map_eq_some_iff.mp hname
    have hm := List.mem_of_find?_eq_some hfind
    exact (((hc child hm).handle hfit hst ho).of_child hm).mono (fun _ _ _ _ h => h.2.1)
      fun _ _ _ => trivial

/-- A member, and the key of the next. -/
theorem safe_member (hc : ∀ child ∈ n.children, Secure c s stall child.2) {key : Token}
    (hfit : w.Fit c) (hst : w.state.stall = stall) :
    Safe c s MatchError.OfDocument (· ∈ n.loopBuckets) (· ∈ n.slots) w
      (member (n.children.map fun child => (child.1, child.2.halting)) key)
      (fun r w' => key.kind ≠ .finish ∧ w.cursor.position ≤ w'.cursor.position ∧
        ∀ next, r = .inl next → w.cursor.position ≤ next.offset ∧
          next.offset ≤ w'.cursor.position ∧
          (next.kind ≠ .finish → next.offset < w'.cursor.position)) (fun _ => True) := by
  refine (safe_memberStart hfit).bind fun first w₁ hm₁ hfit₁ h₁ => ?_
  obtain ⟨hkey, h₁⟩ := h₁
  refine (safe_memberValue hc hfit₁ (hm₁.stall.trans hst) h₁.lt).bind fun _ w₂ _ hfit₂ h₂ => ?_
  have hpos := Nat.le_trans (Nat.le_trans h₁.ahead h₁.passed) h₂
  refine (safe_nextPart hfit₂).bind fun r w₃ _ hfit₃ h₃ => ?_
  obtain ⟨-, hle, hnext⟩ := h₃
  cases r with
  | none => exact safe_pure hfit₃ ⟨hkey, Nat.le_trans hpos hle, nofun⟩
  | some next =>
    refine safe_pure hfit₃ ⟨hkey, Nat.le_trans hpos hle, ?_⟩
    rintro _ ⟨⟩
    obtain ⟨ho, hp, hlt⟩ := hnext next rfl
    exact ⟨Nat.le_trans hpos ho, hp, hlt⟩

/-- **The members of an object.** -/
theorem safe_members (hn : n.Fits c stall)
    (hc : ∀ child ∈ n.children, Secure c s stall child.2)
    (hbound : s.bound = c.data.length + 1) (hfit : w.Fit c) (hst : w.state.stall = stall) :
    Safe c s MatchError.OfDocument (· ∈ n.loopBuckets) (· ∈ n.slots) w
      (members (n.children.map fun child => (child.1, child.2.halting)))
      (fun _ w' => (∀ child ∈ n.children, ∀ b ∈ child.2.buckets, w'.Known b) ∧
        w.cursor.position ≤ w'.cursor.position) (fun _ => True) := by
  have rest {w₁ : Walker} (hm₁ : Moves (· ∈ n.loopBuckets) (· ∈ n.slots) w w₁) (hfit₁ : w₁.Fit c)
      (hp : w.cursor.position ≤ w₁.cursor.position) :
      Safe c s MatchError.OfDocument (· ∈ n.loopBuckets) (· ∈ n.slots) w₁
        (missingAll (n.children.map fun child => (child.1, child.2.halting)))
        (fun _ w' => (∀ child ∈ n.children, ∀ b ∈ child.2.buckets, w'.Known b) ∧
          w.cursor.position ≤ w'.cursor.position) (fun _ => True) :=
    (safe_missingAll hn hc hfit₁ (hm₁.stall.trans hst)).mono
      (fun _ _ _ _ h => ⟨h.1, by rw [h.2]; exact hp⟩) fun _ _ _ => trivial
  refine (safe_token hfit).bind fun key w₁ hm₁ hfit₁ h₁ => ?_
  have hpos := Nat.le_trans h₁.ahead h₁.passed
  split
  · exact rest hm₁ hfit₁ hpos
  · refine Safe.bind (Q := fun _ w' => w.cursor.position ≤ w'.cursor.position) ?_
      fun _ w₂ hm₂ hfit₂ h₂ => rest (hm₁.trans hm₂) hfit₂ h₂
    refine meets_repeatedly (meets_iterate (I := fun k (key : Token) w' =>
        Moves (· ∈ n.loopBuckets) (· ∈ n.slots) w₁ w' ∧ w'.Fit c ∧
        w.cursor.position ≤ key.offset ∧ key.offset ≤ w'.cursor.position ∧
        (key.kind ≠ .finish → key.offset < w'.cursor.position) ∧
        c.data.length < k + key.offset) (fun k key w' hi => ?_) (fun key w' hi => ?_) ?_)
    · obtain ⟨hm', hfit', hle, hkey, hlt, hfuel⟩ := hi
      have hst' : w'.state.stall = stall := hm'.stall.trans (hm₁.stall.trans hst)
      refine ((safe_member hc hfit' hst').after hm').mono (fun r w'' h => ?_) fun _ _ h => h
      obtain ⟨hm'', hfit'', hne, hle', hnext⟩ := h
      have hlt := hlt hne
      cases r with
      | inl next =>
        obtain ⟨ho, hp, hlt'⟩ := hnext next rfl
        exact ⟨hm'', hfit'', by omega, hp, hlt', by omega⟩
      | inr _ => exact ⟨hm'', hfit'', by omega⟩
    · obtain ⟨-, hfit', -, hkey, -, hfuel⟩ := hi
      have hin := hfit'.inside
      rw [Cursor.Inside, hfit'.data] at hin
      omega
    · exact ⟨.refl _, hfit₁, h₁.ahead, h₁.passed, h₁.lt, by omega⟩

/-! ## 6. Nodes -/

/-- Reading a container and taking its bytes. -/
theorem safe_container {make : Bytes → Value} {token : Token} {inside : Walk Unit}
    {P : Walker → Prop} (ho : token.offset < w.cursor.position)
    (h : Safe c s F loops slots w inside
      (fun _ w' => P w' ∧ w.cursor.position ≤ w'.cursor.position) S) :
    Safe c s F loops slots w (container make token inside)
      (fun v w' => P w' ∧ w.cursor.position ≤ w'.cursor.position ∧
        v = make ((Span.between token.offset w'.cursor.position).text c.data)) S := by
  refine h.bind fun _ w₁ _ hfit₁ h₁ => ?_
  refine (safe_spanFrom hfit₁ (Nat.lt_of_lt_of_le ho h₁.2)).bind fun span w₂ _ hfit₂ h₂ => ?_
  obtain ⟨rfl, rfl, -⟩ := h₂
  refine safe_get_bind (safe_pure hfit₂ ⟨h₁.1, h₁.2, ?_⟩)
  rw [hfit₂.data]

/-- What a node needs to be handled: its parts are secure, and the walk has fuel enough. -/
structure Ready (c : Course) (s : Setting) (stall : Option Nat) (n : Node) : Prop where
  fits : n.Fits c stall
  bound : s.bound = c.data.length + 1
  children : ∀ child ∈ n.children, Secure c s stall child.2
  bodies : ∀ l ∈ n.allLoops, Secure c s (some l.bucket) l.body

theorem Ready.read (h : Ready c s stall n) {token : Token} (hfit : w.Fit c)
    (hst : w.state.stall = stall) (ho : token.kind ≠ .finish → token.offset < w.cursor.position) :
    Safe c s MatchError.OfDocument (· ∈ n.loopBuckets) (· ∈ n.slots) w (n.halting.read token)
      (fun _ w' => token.offset < w'.cursor.position ∧ w.cursor.position ≤ w'.cursor.position ∧
        (token.kind.isScalar = true → SamePlace w w') ∧
        (token.kind = .arrayStart → ∀ l ∈ n.loops, w'.Known l.bucket) ∧
        (token.kind = .objectStart → ∀ child ∈ n.children, ∀ b ∈ child.2.buckets, w'.Known b))
      (fun _ => token.kind.isScalar = false) := by
  rw [Node.halting_eq]
  show Safe c s _ _ _ w (readValue _ _ token) _ _
  unfold readValue
  split
  · next hk =>
    have hlt := ho (by rw [hk]; exact TokenKind.noConfusion)
    refine (safe_container (P := fun w' => ∀ child ∈ n.children, ∀ b ∈ child.2.buckets,
      w'.Known b) hlt ?_).mono (fun _ w' _ _ hw => ?_) fun _ _ h => h
    · split
      · next he =>
        rw [List.isEmpty_iff, List.map_eq_nil_iff] at he
        refine (safe_skip hfit).mono (fun _ _ _ _ hw => ⟨?_, Nat.le_of_lt hw.2⟩) fun _ _ h => h
        simp [he]
      · refine (safe_members h.fits h.children h.bound hfit hst).mono (fun _ _ _ _ h => h)
          fun _ _ _ => ?_
        rw [hk]
        rfl
    · rw [hk]
      exact ⟨Nat.lt_of_lt_of_le hlt hw.2.1, hw.2.1, nofun, nofun, fun _ => hw.1⟩
  · next hk =>
    have hlt := ho (by rw [hk]; exact TokenKind.noConfusion)
    refine (safe_container (P := fun w' => ∀ l ∈ n.loops, w'.Known l.bucket) hlt ?_).mono
      (fun _ w' _ _ hw => ?_) fun _ _ h => h
    · split
      · next he =>
        rw [List.isEmpty_iff, List.map_eq_nil_iff] at he
        refine (safe_skip hfit).mono (fun _ _ _ _ hw => ⟨?_, Nat.le_of_lt hw.2⟩) fun _ _ h => h
        simp [he]
      · refine (safe_runLoops h.fits h.bodies h.bound hfit hst).mono (fun _ _ _ _ h => h)
          fun _ _ _ => ?_
        rw [hk]
        rfl
    · rw [hk]
      exact ⟨Nat.lt_of_lt_of_le hlt hw.2.1, hw.2.1, nofun, fun _ => hw.1, nofun⟩
  · next hobj harr =>
    split
    · next hs =>
      have hlt := ho (fun he => by rw [he] at hs; cases hs)
      exact safe_pure hfit ⟨hlt, Nat.le_refl _, fun _ => rfl, fun hk => absurd hk harr,
        fun hk => absurd hk hobj⟩
    · exact safe_unexpected

/-- Everything is known that a node and its children are there to find out. -/
theorem known_of_parts (hn : n.Fits c stall) (ht : w.state.tree = c.tree)
    (htests : ∀ t ∈ n.tests, w.Known t.bucket) (hloops : ∀ l ∈ n.loops, w.Known l.bucket)
    (hchildren : ∀ child ∈ n.children, ∀ b ∈ child.2.buckets, w.Known b)
    (hm : Moves (· ∈ n.loopBuckets) slots w w')
    (hafter : (∀ t ∈ n.afterTests, w'.Known t.bucket) ∧ ∀ l ∈ n.afterLoops, w'.Known l.bucket) :
    ∀ b ∈ n.buckets, w'.Known b := fun b hb => by
  have keep (hk : w.Known b) : w'.Known b := hm.known_of_node hn ht hb hk
  rcases Node.mem_buckets.mp hb with ⟨t, htm, rfl⟩ | ⟨l, hl, rfl⟩ | ⟨child, hc, hb'⟩
  · rcases List.mem_append.mp htm with htm | htm
    · exact keep (htests t htm)
    · exact hafter.1 t htm
  · rcases List.mem_append.mp hl with hl | hl
    · exact keep (hloops l hl)
    · exact hafter.2 l hl
  · exact keep (hchildren child hc b hb')

theorem safe_unlessOf {kind : TokenKind} {token : Token} {part : Walk Unit} {P : Walker → Prop}
    (hfit : w.Fit c) (hk : token.kind = kind → P w)
    (hp : Safe c s F loops slots w part (fun _ w' => P w' ∧ SamePlace w w') S) :
    Safe c s F loops slots w (unlessOf kind token part) (fun _ w' => P w' ∧ SamePlace w w') S := by
  unfold unlessOf
  split
  · next h => exact safe_pure hfit ⟨hk h, rfl⟩
  · exact hp

/-- **What is done with a value, or without one**: the tests, what the loops and the children need
    besides, and what has waited. -/
theorem Ready.complete (h : Ready c s stall n) {v : Value} {loopPart childPart : Walk Unit}
    (hfit : w.Fit c) (hst : w.state.stall = stall)
    (hloops : ∀ w', Moves (· ∈ n.loopBuckets) (· ∈ n.slots) w w' → w'.Fit c →
      Safe c s MatchError.OfDocument (· ∈ n.loopBuckets) (· ∈ n.slots) w' loopPart
        (fun _ w'' => (∀ l ∈ n.loops, w''.Known l.bucket) ∧ SamePlace w' w'') (SamePlace w'))
    (hchildren : ∀ w', Moves (· ∈ n.loopBuckets) (· ∈ n.slots) w w' → w'.Fit c →
      Safe c s MatchError.OfDocument (· ∈ n.loopBuckets) (· ∈ n.slots) w' childPart
        (fun _ w'' => (∀ child ∈ n.children, ∀ b ∈ child.2.buckets, w''.Known b) ∧
          SamePlace w' w'') (SamePlace w')) :
    Safe c s MatchError.OfDocument (· ∈ n.loopBuckets) (· ∈ n.slots) w
      (do
        n.tests.forM (test v)
        loopPart
        childPart
        after n.afterTests (n.afterLoops.map fun l => (l.target, l.halting)))
      (fun _ w' => (∀ b ∈ n.buckets, w'.Known b) ∧ SamePlace w w') (SamePlace w) := by
  have hn := h.fits
  -- what is known of the node's buckets at some moment is known later
  have keep {w₁ w₂ : Walker} (hfit : w₁.Fit c) (hm : Moves (· ∈ n.loopBuckets) (· ∈ n.slots) w₁ w₂)
      {b : Nat} (hb : b ∈ n.buckets) (hk : w₁.Known b) : w₂.Known b :=
    hm.known_of_node hn hfit.tree hb hk
  refine (safe_tests hn (fun t ht => List.mem_append_left _ ht) hfit hst).bind_here
    fun _ w₁ hm₁ hfit₁ h₁ => ?_
  refine (hloops w₁ hm₁ hfit₁).bind_here fun _ w₂ hm₂ hfit₂ h₂ => ?_
  refine (hchildren w₂ (hm₁.trans hm₂) hfit₂).bind_here fun _ w₃ hm₃ hfit₃ h₃ => ?_
  have hst₃ := (hm₁.trans (hm₂.trans hm₃)).stall.trans hst
  refine (safe_after hn h.bodies h.bound hfit₃ hst₃).mono (fun _ w₄ hm₄ _ h₄ => ⟨?_, h₄.2⟩)
    fun _ _ h => h
  refine known_of_parts hn hfit₃.tree (fun t ht => keep hfit₁ (hm₂.trans hm₃) ?_ (h₁ t ht))
    (fun l hl => keep hfit₂ hm₃ ?_ (h₂ l hl)) h₃ hm₄ h₄.1
  · exact Node.mem_buckets.mpr (.inl ⟨t, List.mem_append_left _ ht, rfl⟩)
  · exact Node.mem_buckets.mpr (.inr (.inl ⟨l, List.mem_append_left _ hl, rfl⟩))

theorem Ready.finish (h : Ready c s stall n) {token : Token} {v : Value} (hfit : w.Fit c)
    (hst : w.state.stall = stall) (ho : token.offset < w.cursor.position)
    (hloops : token.kind = .arrayStart → ∀ l ∈ n.loops, w.Known l.bucket)
    (hchildren : token.kind = .objectStart → ∀ child ∈ n.children, ∀ b ∈ child.2.buckets,
      w.Known b) :
    Safe c s MatchError.OfDocument (· ∈ n.loopBuckets) (· ∈ n.slots) w
      (n.halting.finish token v) (fun _ w' => (∀ b ∈ n.buckets, w'.Known b) ∧ SamePlace w w')
      (SamePlace w) := by
  rw [Node.halting_eq]
  refine Safe.bind_here (P := fun _ w' => w'.state = w.state) ((safe_capture hfit h.fits.slot
    (fun i hi => Node.mem_slots.mpr (.inl hi)) ho).mono (fun _ _ _ _ h => ⟨h.state, ?_⟩)
    fun _ _ h => h) fun _ w₁ hm₁ hfit₁ _ => ?_
  · rw [SamePlace, h.cursor]
  refine h.complete hfit₁ (hm₁.stall.trans hst) (fun w₂ hm₂ hfit₂ => ?_) fun w₂ hm₂ hfit₂ => ?_
  · refine safe_unlessOf hfit₂ (fun hk l hl => ?_)
      (safe_failLoops h.fits hfit₂ ((hm₁.trans hm₂).stall.trans hst))
    exact (hm₁.trans hm₂).known_of_node h.fits hfit.tree
      (Node.mem_buckets.mpr (.inr (.inl ⟨l, List.mem_append_left _ hl, rfl⟩))) (hloops hk l hl)
  · refine safe_unlessOf hfit₂ (fun hk child hc b hb => ?_)
      (safe_missingAll h.fits h.children hfit₂ ((hm₁.trans hm₂).stall.trans hst))
    exact (hm₁.trans hm₂).known_of_node h.fits hfit.tree
      (Node.mem_buckets.mpr (.inr (.inr ⟨child, hc, hb⟩))) (hchildren hk child hc b hb)

theorem Ready.missing (h : Ready c s stall n) (hfit : w.Fit c) (hst : w.state.stall = stall) :
    Safe c s MatchError.OfDocument (· ∈ n.loopBuckets) (· ∈ n.slots) w n.halting.missing
      (fun _ w' => (∀ b ∈ n.buckets, w'.Known b) ∧ SamePlace w w') (SamePlace w) := by
  rw [Node.halting_eq]
  exact h.complete hfit hst
    (fun _ hm₁ hfit₁ => safe_failLoops h.fits hfit₁ (hm₁.stall.trans hst))
    fun _ hm₁ hfit₁ => safe_missingAll h.fits h.children hfit₁ (hm₁.stall.trans hst)

/-- **Every node that fits the tree and the slots is safe**, whatever the document is. -/
theorem secure (hbound : s.bound = c.data.length + 1) (n : Node) :
    ∀ stall, n.Fits c stall → Secure c s stall n := by
  induction n using Node.induct with
  | h n children loops afterLoops =>
    intro stall hn
    have ready : Ready c s stall n := {
      fits := hn
      bound := hbound
      children := fun child hc => children child hc stall (hn.child hc)
      bodies := fun l hl => by
        rcases List.mem_append.mp hl with h | h
        · exact loops l h _ (hn.loop hl).2.1
        · exact afterLoops l h _ (hn.loop hl).2.1 }
    exact {
      read := fun _ _ hfit hst ho => ready.read hfit hst ho
      finish := fun _ _ _ hfit hst ho hl hc => ready.finish hfit hst ho hl hc
      missing := fun _ hfit hst => ready.missing hfit hst }

/-! ## 7. Documents -/

/-- The first token of a document. -/
theorem safe_opening (hfit : w.Fit c) :
    Safe c s MatchError.OfDocument loops slots w opening (fun token w' => OnlyReads w w' ∧
      (token.kind ≠ .finish → token.offset < w'.cursor.position)) S := by
  refine (safe_token hfit).bind fun token w₁ _ hfit₁ h₁ => ?_
  split
  · exact safe_fail fun d he => by cases he
  · exact safe_pure hfit₁ ⟨h₁.toOnlyReads, h₁.lt⟩

/-- What settles a walk that no loop bounds is that its answers are known. -/
theorem known_of_isSettled (hone : s.buckets.length ≤ 1 → ∀ b ∈ s.buckets, b = 0)
    (hst : w.state.stall = none) (h : s.isSettled w.state = true) :
    ∀ b ∈ s.buckets, w.Known b := by
  unfold Setting.isSettled at h
  rw [hst] at h
  split at h
  · intro b hb
    exact State.isResolved_iff.mp (List.all_eq_true.mp h b hb)
  · next hlen =>
    rw [Option.isNone_none, Bool.true_and, decide_eq_true_eq, Nat.not_lt] at hlen
    intro b hb
    rw [hone hlen b hb]
    unfold State.isSettled at h
    rw [hst] at h
    exact State.isResolved_iff.mp h

/-- **A walk over any document** is safe for a plan that fits its tree and slots. Where it ends, it
    is settled, or everything is known that the root is there to find out. -/
theorem safe_document (hn : n.Fits c none) (hbound : s.bound = c.data.length + 1)
    (hfit : w.Fit c) (hst : w.state.stall = none) :
    Safe c s MatchError.OfDocument (· ∈ n.loopBuckets) (· ∈ n.slots) w (document n.halting)
      (fun _ w' => s.isSettled w'.state = true ∨ ∀ b ∈ n.buckets, w'.Known b)
      (fun _ => True) := by
  have hs := secure hbound n none hn
  refine (safe_opening hfit).bind fun token w₁ hm₁ hfit₁ h₁ => ?_
  refine Safe.bind ((hs.read w₁ token hfit₁ (hm₁.stall.trans hst) h₁.2).mono (fun _ _ _ _ h => h)
    fun _ _ _ => trivial) fun v w₂ hm₂ hfit₂ h₂ => ?_
  obtain ⟨hlt, -, -, hloops, hchildren⟩ := h₂
  refine (safe_note (e := .wholeRead) hfit₂ trivial).bind fun _ w₃ hm₃ hfit₃ h₃ => ?_
  subst h₃
  have hst₃ := (hm₁.trans (hm₂.trans hm₃)).stall.trans hst
  refine Safe.bind (Q := fun _ w₄ => s.isSettled w₄.state = true ∨ ∀ b ∈ n.buckets, w₄.Known b) ?_
    fun _ w₄ _ hfit₄ h₄ => ?_
  · refine meets_settles (Meets.mono (hs.finish _ token v hfit₃ hst₃ hlt hloops hchildren)
      (fun _ _ h => ⟨h.1, h.2.1, .inr h.2.2.1⟩) fun e _ h => ?_)
    cases e with
    | settled => exact ⟨h.1, h.2.1, .inl h.2.2.1⟩
    | failed e => exact h
  · refine (safe_token hfit₄).bind fun last w₅ _ hfit₅ h₅ => ?_
    split
    · refine safe_pure hfit₅ ?_
      simp only [Walker.Known, h₅.state]
      exact h₄
    · exact safe_fail fun d he => by cases he

end Walk

end Sift
