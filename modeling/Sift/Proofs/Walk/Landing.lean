import Mathlib
import Sift.Standard
import Sift.Proofs.Walk.Shape
import Sift.Proofs.Grammar.Documents

/-!
# Where a walk stands after a value

However a value is read, the cursor then stands one past its last byte. It may be passed without
being looked into, read member by member, gone over by one loop after the other, left by a loop that
an element has decided, or be followed by loops over what has been captured elsewhere. Only a walk
that is settled may stand somewhere else, since nothing more is read then.

* `Ends s w m Q`: where the part `m` of a walk ends, if it does, `Q` holds.
* `Walker.Returned`: the cursor is where it was. So it is after all that follows a value.
* `Handler.Lands`, `Runner.Lands`: what is read ends where the value does. `Node.lands` shows it of
  every node, by induction over the node.

`Walker.Opens.ends_behind` says it of a value told by the grammar of JSON. The marks and slots that
a walker begins with may be any.
-/

namespace Sift

open Walk

variable {α β : Type} {s : Setting} {w w' : Walker} {data : Bytes} {pos stop : Nat}

/-! ## 1. Where a part of a walk ends -/

/-- Where the part ends, if it ends and does not fail, `Q` holds. -/
def Ends (s : Setting) (w : Walker) (m : Pass α) (Q : α → Walker → Prop) : Prop :=
  ∀ a w', m.outcome s w = (.ok a, w') → Q a w'

variable {m : Pass α} {Q : α → Walker → Prop}

theorem Ends.mono {Q' : α → Walker → Prop} (h : Ends s w m Q) (hq : ∀ a w', Q a w' → Q' a w') :
    Ends s w m Q' := fun a w' ho => hq a w' (h a w' ho)

theorem Ends.bind {f : α → Pass β} {Q' : β → Walker → Prop} (h : Ends s w m Q)
    (hf : ∀ a w', Q a w' → Ends s w' (f a) Q') : Ends s w (m >>= f) Q' := fun b w'' ho => by
  rw [outcome_bind] at ho
  split at ho
  · next a w' heq => exact hf a w' (h a w' heq) b w'' ho
  · cases ho

theorem ends_of_outcome {a : α} (ho : m.outcome s w = (.ok a, w')) (hq : Q a w') :
    Ends s w m Q := fun b w'' hb => by
  rw [ho] at hb
  cases hb
  exact hq

/-- A part that ends comes to a walker. -/
theorem outcome_of_fst {a : α} (h : (m.outcome s w).1 = .ok a) :
    m.outcome s w = (.ok a, (m.outcome s w).2) := Prod.ext h rfl

theorem ends_pure {a : α} (h : Q a w) : Ends s w (pure a) Q := fun _ _ ho => by
  cases ho
  exact h

theorem ends_fail {e : MatchError} : Ends s w (fail e) Q := fun _ _ ho => by cases ho

theorem ends_get {Q : Walker → Walker → Prop} (h : Q w w) : Ends s w get Q := fun _ _ ho => by
  cases ho
  exact h

/-- What a part keeps in all that it does, it keeps where it ends. -/
theorem Keeps.ends {R : Walker → Walker → Prop} (h : Keeps R m) :
    Ends s w m fun _ w' => R w w' := fun a w' ho => by
  have hr := h s w
  rwa [ho] at hr

theorem Ends.and {Q' : α → Walker → Prop} (h : Ends s w m Q) (h' : Ends s w m Q') :
    Ends s w m fun a w' => Q a w' ∧ Q' a w' := fun a w' ho => ⟨h a w' ho, h' a w' ho⟩

/-- **Turn after turn**, where each keeps `I`. -/
theorem ends_iterate {next : α → Pass (α ⊕ β)} {I : α → Walker → Prop} {Q : β → Walker → Prop}
    (h : ∀ a w, I a w → Ends s w (next a) fun r w' => Sum.elim (I · w') (Q · w') r) :
    ∀ (fuel : Nat) {a : α} {w : Walker}, I a w → Ends s w (iterate next fuel a) Q
  | 0, _, _, _ => ends_fail
  | fuel + 1, a, w, hi => (h a w hi).bind fun r w' hr => by
    cases r with
    | inl a => exact ends_iterate h fuel hr
    | inr b => exact ends_pure hr

/-- Asking whether a walk is settled changes nothing. -/
theorem ends_settled {Q : Bool → Walker → Prop} (h : Q (s.isSettled w.state) w) :
    Ends s w Pass.settled Q := fun _ _ ho => by
  cases ho
  exact h

/-! ## 2. Parts that come back -/

/-- The shape and the document are the same, and a cursor that was inside the document is where it
    was. -/
structure Walker.Returned (w w' : Walker) : Prop extends w.SameDocument w' where
  position : w.cursor.Inside → w'.cursor.position = w.cursor.position

instance : Framing Walker.Returned where
  still h hc := ⟨Framing.still h hc, fun _ => by rw [hc]⟩
  trans h h' := ⟨Framing.trans h.1 h'.1, fun hi =>
    (h'.position (by unfold Cursor.Inside; rwa [h.data, h.position hi])).trans (h.position hi)⟩

/-- Coming back from a part that does what it likes with the same document. -/
theorem Keeps.returned {part : Pass Unit} (h : Keeps Walker.SameDocument part) (s : Setting)
    {w w' : Walker} (hw : w.SameDocument w') :
    w.Returned ((Walk.restoring part (Walk.seek w.cursor.position)).outcome s w').2 := by
  rw [outcome_returning]
  obtain ⟨hshape, hdata⟩ := Framing.trans hw (h s w')
  exact ⟨⟨⟨hshape.tree, hshape.marks, hshape.slots⟩, hdata⟩, fun hi =>
    Nat.min_eq_left (by rw [hdata]; exact hi)⟩

/-- A loop over what has been captured comes back. -/
theorem Keeps.runOver_returns {found : Option Span} {loop : Runner}
    (h : Keeps Walker.SameDocument loop.run) :
    Keeps Walker.Returned (Pass.runOver found loop) := get_bind fun s w => by
  cases found with
  | none => exact mark s w
  | some span =>
    dsimp only
    split
    · rw [outcome_bind]
      exact h.returned s ⟨⟨rfl, rfl, rfl⟩, rfl⟩
    · exact mark s w

/-! ## 3. Standing at a place -/

/-- The walker stands at a position of the document. -/
structure Walker.Stood (data : Bytes) (pos : Nat) (w : Walker) : Prop where
  inside : pos ≤ data.length
  data : w.cursor.data = data
  position : w.cursor.position = pos

theorem Walker.Stood.returned (h : w.Stood data pos) (hr : w.Returned w') :
    w'.Stood data pos := by
  have hi : w.cursor.Inside := by
    unfold Cursor.Inside
    rw [h.position, h.data]
    exact h.inside
  exact ⟨h.inside, hr.data.trans h.data, (hr.position hi).trans h.position⟩

/-- A part that comes back is nothing to where the walker stands. -/
theorem Keeps.stood (hm : Keeps Walker.Returned m) (h : w.Stood data pos) :
    Ends s w m fun _ w' => w'.Stood data pos := hm.ends.mono fun _ _ hr => h.returned hr

theorem ends_seek (hd : w.cursor.data = data) (hp : pos ≤ data.length) :
    Ends s w (seek pos) fun _ w' => w'.Stood data pos := fun _ _ ho => by
  cases ho
  exact ⟨hp, hd, Nat.min_eq_left (by rwa [hd])⟩

/-- **A step** reads the token that comes next. -/
theorem ends_step {t : Token} (h : w.Stood data pos) (hn : Token.Next data pos t)
    (hk : t.kind ≠ .finish) :
    Ends s w step fun a w' => a = t ∧ w'.Stood data t.stop := fun a w' ho => by
  rw [outcome_step] at ho
  obtain ⟨c, hs, hd, hp⟩ := step_of_next (c := w.cursor) h.data (by rwa [h.position])
  rw [hs] at ho
  cases ho
  exact ⟨rfl, (hn.split hk).2.2.1, hd, hp⟩

/-- Skipping the rest of a container comes to where it stops. -/
theorem skips_container (h : w.Stood data pos) (hl : Leaves data pos stop) :
    ∃ w', (skipContainer : Pass Unit).outcome s w = (.ok (), w') ∧ w'.Stood data stop := by
  obtain ⟨c, hs, hd, hp⟩ := skipContainer_of_leaves (c := w.cursor) h.data (by rwa [h.position])
  rw [outcome_skipContainer, hs]
  exact ⟨_, rfl, hl.2.1, hd, hp⟩

/-- **Passing a value** whose first token has been read comes to where it stops. -/
theorem skips_value {d : Doc} (hd : d.Lies data) (h : w.Stood data d.opening.stop) :
    ∃ w', (skipValue d.opening : Pass Unit).outcome s w = (.ok (), w') ∧ w'.Stood data d.stop := by
  unfold skipValue
  rcases hd.kind with hs | ho
  · rw [if_neg (by rw [(TokenKind.of_isScalar hs).2.1]; exact Bool.false_ne_true), if_pos hs,
      Doc.stop_of_isScalar hd hs]
    exact ⟨w, rfl, h⟩
  · rw [if_pos ho]
    exact skips_container h (hd.inside ho)

theorem ends_skipContainer (h : w.Stood data pos) (hl : Leaves data pos stop) :
    Ends s w skipContainer fun _ w' => w'.Stood data stop := by
  obtain ⟨w₁, ho, h₁⟩ := skips_container h hl
  exact ends_of_outcome ho h₁

theorem ends_skipValue {d : Doc} (hd : d.Lies data) (h : w.Stood data d.opening.stop) :
    Ends s w (skipValue d.opening) fun _ w' => w'.Stood data d.stop := by
  obtain ⟨w₁, ho, h₁⟩ := skips_value hd h
  exact ends_of_outcome ho h₁

/-- Passing a value from where it starts. -/
theorem ends_passAt {d : Doc} (hd : d.Lies data) (h : w.cursor.data = data) :
    Ends s w (passAt d.opening.offset) fun _ w' => w'.Stood data d.stop := by
  have hb := hd.bounds
  refine (ends_seek h (by omega)).bind fun _ w₁ h₁ => ?_
  refine (ends_step h₁ hd.again hd.ne_finish).bind fun t w₂ ⟨ht, h₂⟩ => ?_
  subst ht
  exact ends_skipValue hd h₂

/-- What closes a container comes next. -/
theorem ends_nextPart_closes {kind : TokenKind} {e : Expected} (h : w.Stood data pos)
    (hk : kind.closes = true) (hc : Closes data kind pos stop) :
    Ends s w (nextPart kind e) fun r w' => r = none ∧ w'.Stood data stop := by
  obtain ⟨t, hn, rfl, rfl⟩ := hc
  have hne : t.kind ≠ .finish ∧ t.kind ≠ .listDelim := by
    cases hkind : t.kind <;> rw [hkind] at hk <;> first
      | exact ⟨TokenKind.noConfusion, TokenKind.noConfusion⟩
      | cases hk
  refine (ends_step h hn hne.1).bind fun a w₁ ⟨ha, h₁⟩ => ?_
  subst ha
  rw [if_neg hne.2, if_pos rfl]
  exact ends_pure ⟨rfl, h₁⟩

/-- A comma comes next, and then the next part. -/
theorem ends_nextPart_continues {kind : TokenKind} {e : Expected} {t : Token}
    (h : w.Stood data pos) (hc : Continues data pos t) (hk : t.kind ≠ .finish) :
    Ends s w (nextPart kind e) fun r w' => r = some t ∧ w'.Stood data t.stop := by
  obtain ⟨comma, hn, hcomma, ht⟩ := hc
  refine (ends_step h hn (by rw [hcomma]; exact TokenKind.noConfusion)).bind fun a w₁ ⟨ha, h₁⟩ => ?_
  subst ha
  rw [if_pos hcomma]
  refine (ends_step h₁ ht hk).bind fun b w₂ ⟨hb, h₂⟩ => ?_
  subst hb
  exact ends_pure ⟨rfl, h₂⟩

/-- After a key come a colon and the first token of the value. -/
theorem ends_memberStart {key first : Token} (h : w.Stood data key.stop)
    (hi : Introduces data key first) (hk : first.kind ≠ .finish) :
    Ends s w (memberStart key) fun t w' => t = first ∧ w'.Stood data first.stop := by
  obtain ⟨hstring, colon, hn, hcolon, hf⟩ := hi
  unfold memberStart
  rw [if_pos hstring]
  refine (ends_step h hn (by rw [hcolon]; exact TokenKind.noConfusion)).bind fun a w₁ ⟨ha, h₁⟩ => ?_
  subst ha
  rw [if_pos hcolon]
  exact ends_step h₁ hf hk

/-! ## 4. Handlers and runners -/

/-- The walk is settled, or else the walker stands at a position of the document. -/
def Walker.Arrived (s : Setting) (data : Bytes) (pos : Nat) (w : Walker) : Prop :=
  s.isSettled w.state = false → w.Stood data pos

/-- A value is done with: the walker stands behind it, or the walk has been settled inside. -/
def Walker.Done (s : Setting) (data : Bytes) (d : Doc) (w : Walker) : Prop :=
  w.Stood data d.stop ∨ (s.isSettled w.state = true ∧ d.opening.kind.isScalar = false)

/-- A value has been read: the walker stands behind it, or there is none, since the walk has been
    settled inside. -/
def Walker.HasRead (s : Setting) (data : Bytes) (d : Doc) : Option Value → Walker → Prop
  | some _, w => w.Stood data d.stop
  | none, w => s.isSettled w.state = true ∧ d.opening.kind.isScalar = false

/-- **What a handler reads ends where the value does**, and what it does after that comes back. -/
structure Handler.Lands (s : Setting) (data : Bytes) (h : Handler) : Prop where
  keeps : h.Keeps
  read : ∀ (d : Doc) (w : Walker), d.Lies data → w.Stood data d.opening.stop →
    Ends s w (h.read d.opening) fun v w' => w'.HasRead s data d v
  finish : ∀ token v, Sift.Keeps Walker.Returned (h.finish token v)
  missing : Sift.Keeps Walker.Returned h.missing

/-- **What a runner reads ends where the array does.** -/
structure Runner.Lands (s : Setting) (data : Bytes) (r : Runner) : Prop where
  keeps : Sift.Keeps Walker.SameDocument r.run
  run : ∀ (items : List Doc) (pos stop : Nat) (w : Walker), Doc.AllItems data stop pos items →
    w.Stood data pos → Ends s w r.run fun _ w' => w'.Arrived s data stop

theorem Handler.Lands.handle {h : Handler} (hh : h.Lands s data) {d : Doc} (hd : d.Lies data)
    (hw : w.Stood data d.opening.stop) :
    Ends s w (h.handle d.opening) fun _ w' => w'.Done s data d :=
  (hh.read d w hd hw).bind fun v w₁ h₁ => by
    cases v with
    | some v => exact ((hh.finish d.opening v).stood h₁).mono fun _ _ => .inl
    | none => exact ends_pure (.inr h₁)

theorem Walker.Done.arrived {d : Doc} (h : w.Done s data d) : w.Arrived s data d.stop :=
  fun hs => h.resolve_right fun h => Bool.false_ne_true (hs.symm.trans h.1)

/-! ## 5. Objects -/

section Objects

variable {children : List (String × Handler)} (hc : ∀ c ∈ children, c.2.Lands s data)
include hc

/-- A member has been read, or has settled the walk. -/
theorem ends_memberValue {key : Token} {d : Doc} (hd : d.Lies data)
    (h : w.Stood data d.opening.stop) :
    Ends s w (Pass.memberValue children key d.opening) fun b w' =>
      if b then s.isSettled w'.state = true else w'.Stood data d.stop := by
  unfold Pass.memberValue
  split
  · next handler hfind =>
    obtain ⟨c, hm, rfl⟩ := Pass.mem_of_handlerOf hfind
    refine ((hc c hm).handle hd h).bind fun _ w₁ h₁ => ends_settled ?_
    split
    · next hs => exact hs
    · next hs => exact h₁.arrived ((Bool.not_eq_true _).mp hs)
  · exact (ends_skipValue hd h).bind fun _ _ h₁ => ends_pure h₁

/-- The walker stands behind a key, after which come the rest of a member and these others. -/
def Walker.AtMember (data : Bytes) (stop : Nat) (key : Token) (w : Walker) : Prop :=
  ∃ (x : Doc) (rest : List (Token × Doc)), Introduces data key x.opening ∧ x.Lies data ∧
    Doc.MoreMembers data stop x.stop rest ∧ w.Stood data key.stop

theorem ends_member {key : Token} (h : w.AtMember data stop key) :
    Ends s w (Pass.member children key) fun r w' => Sum.elim (w'.AtMember data stop ·)
      (fun b => if b then s.isSettled w'.state = true else w'.Stood data stop) r := by
  obtain ⟨x, rest, hi, hx, hrest, hw⟩ := h
  refine (ends_memberStart hw hi hx.ne_finish).bind fun first w₁ ⟨hfirst, h₁⟩ => ?_
  subst hfirst
  refine (ends_memberValue hc hx h₁).bind fun b w₂ h₂ => ?_
  cases b with
  | true => exact ends_pure h₂
  | false =>
    rw [if_neg Bool.false_ne_true]
    cases rest with
    | nil =>
      refine (ends_nextPart_closes h₂ rfl hrest).bind fun r w₃ ⟨hr, h₃⟩ => ?_
      subst hr
      exact ends_pure h₃
    | cons m rest =>
      obtain ⟨key', y⟩ := m
      obtain ⟨hcont, hintro, hy, hmore⟩ := hrest
      have hk : key'.kind ≠ .finish :=
        (TokenKind.of_isScalar (TokenKind.isScalar_of_isString hintro.1)).1
      refine (ends_nextPart_continues h₂ hcont hk).bind fun r w₃ ⟨hr, h₃⟩ => ?_
      subst hr
      exact ends_pure ⟨y, rest, hintro, hy, hmore, h₃⟩

/-- Children that have no value are no reading. -/
theorem keeps_missing : Keeps Walker.Returned (discard (Pass.missingAll children)) :=
  Keeps.composes.discard (Keeps.composes.missingAll fun c hm => (hc c hm).missing)

/-- **The members of an object.** -/
theorem ends_members {members : List (Token × Doc)} (hm : Doc.AllMembers data stop pos members)
    (h : w.Stood data pos) :
    Ends s w (Pass.members children) fun _ w' => w'.Arrived s data stop := by
  cases members with
  | nil =>
    obtain ⟨t, hn, hk, rfl⟩ := hm
    refine (ends_step h hn (by rw [hk]; exact TokenKind.noConfusion)).bind fun a w₁ ⟨ha, h₁⟩ => ?_
    subst ha
    rw [if_pos hk]
    exact ((keeps_missing hc).stood h₁).mono fun _ _ h₂ _ => h₂
  | cons m rest =>
    obtain ⟨key, x⟩ := m
    obtain ⟨hn, hintro, hx, hmore⟩ := hm
    have hstring := hintro.1
    refine (ends_step h hn (TokenKind.of_isScalar (TokenKind.isScalar_of_isString hstring)).1).bind
      fun a w₁ ⟨ha, h₁⟩ => ?_
    subst ha
    rw [if_neg fun hk => by rw [hk] at hstring; cases hstring]
    have hturns : Ends s w₁ (repeatedly (Pass.member children) a) fun b w' =>
        if b then s.isSettled w'.state = true else w'.Stood data stop :=
      ends_iterate (fun _ _ hi => ends_member hc hi) s.bound ⟨x, rest, hintro, hx, hmore, h₁⟩
    refine hturns.bind fun b w₂ h₂ => ?_
    cases b with
    | true => exact ends_pure fun hs => absurd (hs.symm.trans h₂) Bool.false_ne_true
    | false => exact ((keeps_missing hc).stood h₂).mono fun _ _ h₃ _ => h₃

end Objects

/-! ## 6. Loops -/

section Loops

variable {bucket bodyBucket : Nat} {mode : LoopMode} {locals : List Nat} {body : Handler}
  (hb : body.Lands s data)

/-- The walker stands behind the first token of an element, after which come its rest and these
    others. -/
def Walker.AtElement (data : Bytes) (stop : Nat) (first : Token) (w : Walker) : Prop :=
  ∃ (x : Doc) (rest : List Doc), first = x.opening ∧ x.Lies data ∧
    Doc.MoreItems data stop x.stop rest ∧ w.Stood data first.stop

/-- A loop has come to something: the array has been read, or it goes on after the element that has
    decided. -/
def Walker.AtVerdict (data : Bytes) (stop : Nat) (decider : Option Token) (w : Walker) : Prop :=
  match decider with
  | none => w.Stood data stop
  | some first => w.cursor.data = data ∧ ∃ (x : Doc) (rest : List Doc),
      first = x.opening ∧ x.Lies data ∧ Doc.MoreItems data stop x.stop rest

theorem Walker.AtVerdict.returned {decider : Option Token} (h : w.AtVerdict data stop decider)
    (hr : w.Returned w') : w'.AtVerdict data stop decider := by
  cases decider with
  | none => exact Walker.Stood.returned h hr
  | some _ => exact ⟨hr.data.trans h.1, h.2⟩

/-- What follows the element that has decided a loop is passed. -/
theorem ends_passArray {decider : Option Token} (h : w.AtVerdict data stop decider) :
    Ends s w (passArray decider) fun _ w' => w'.Stood data stop := by
  cases decider with
  | none => exact ends_pure h
  | some first =>
    obtain ⟨hdata, x, rest, rfl, hx, hmore⟩ := h
    exact (ends_passAt hx hdata).bind fun _ w₁ h₁ => ends_skipContainer h₁ hmore.leaves

/-- An element that has been broken off is passed. -/
theorem ends_passRest {d : Doc} (hd : d.Lies data) (h : w.Done s data d)
    (hdata : w.cursor.data = data) :
    Ends s w (passRest (s.isSettled w.state) d.opening) fun _ w' => w'.Stood data d.stop := by
  unfold passRest
  split
  · exact ends_passAt hd hdata
  · next hn =>
    refine ends_pure (h.resolve_right fun hs => hn ?_)
    rw [hs.1, hs.2]
    rfl

include hb

theorem ends_element {turn : Token × Bool} (h : w.AtElement data stop turn.1) :
    Ends s w (Pass.element bucket bodyBucket mode locals body turn) fun r w' =>
      Sum.elim (fun t => w'.AtElement data stop t.1) (w'.AtVerdict data stop ·.decider) r := by
  obtain ⟨first, anySatisfied⟩ := turn
  obtain ⟨x, rest, hfirst, hx, hrest, hw⟩ := h
  obtain rfl : first = x.opening := hfirst
  refine (Keeps.beginElement.stood hw).bind fun _ w₁ h₁ => ?_
  refine ((hb.handle hx h₁).and (hb.keeps.handle _).ends).bind fun _ w₂ ⟨h₂, hsame⟩ => ?_
  have hdata := hsame.data.trans h₁.data
  refine Ends.bind (Q := fun early w' => early = s.isSettled w₂.state ∧ w' = w₂)
    (ends_settled ⟨rfl, rfl⟩) fun early w₃ ⟨hearly, hw₃⟩ => ?_
  subst hearly hw₃
  -- what the body says of the element is only read, and noted
  refine Ends.bind (Q := fun _ w' => w'.state = w₃.state ∧ w'.cursor = w₃.cursor)
    (fun _ _ ho => by cases ho; exact ⟨rfl, rfl⟩) fun satisfied w₄ ⟨hstate, hcursor⟩ => ?_
  have hdata₄ : w₄.cursor.data = data := by rw [hcursor, hdata]
  have h₄ : w₄.Done s data x := by
    refine h₂.imp (fun h => ⟨h.inside, hdata₄, ?_⟩) fun h => ⟨?_, h.2⟩
    · rw [hcursor, h.position]
    · rw [hstate, h.1]
  cases mode.decision satisfied with
  | some answer => exact ends_pure ⟨hdata₄, x, rest, rfl, hx, hrest⟩
  | none =>
    rw [← hstate]
    refine (ends_passRest hx h₄ hdata₄).bind fun _ w₅ h₅ => ?_
    cases rest with
    | nil =>
      refine (ends_nextPart_closes h₅ rfl hrest).bind fun r w₆ ⟨hr, h₆⟩ => ?_
      subst hr
      exact ends_pure h₆
    | cons y rest =>
      obtain ⟨hcont, hy, hmore⟩ := hrest
      refine (ends_nextPart_continues h₅ hcont hy.ne_finish).bind fun r w₆ ⟨hr, h₆⟩ => ?_
      subst hr
      exact ends_pure ⟨y, rest, rfl, hy, hmore, h₆⟩

theorem ends_elements {items : List Doc} (hi : Doc.AllItems data stop pos items)
    (h : w.Stood data pos) :
    Ends s w (Pass.elements bucket bodyBucket mode locals body) fun v w' =>
      w'.AtVerdict data stop v.decider := by
  cases items with
  | nil =>
    obtain ⟨t, hn, hk, rfl⟩ := hi
    refine (ends_step h hn (by rw [hk]; exact TokenKind.noConfusion)).bind fun a w₁ ⟨ha, h₁⟩ => ?_
    subst ha
    rw [if_pos hk]
    exact ends_pure h₁
  | cons x rest =>
    obtain ⟨hn, hx, hmore⟩ := hi
    refine (ends_step h hn hx.ne_finish).bind fun a w₁ ⟨ha, h₁⟩ => ?_
    subst ha
    rw [if_neg fun hk => by rcases hx.kind with h | h <;> rw [hk] at h <;> cases h]
    exact ends_iterate (fun _ _ hi => ends_element hb hi) s.bound ⟨x, rest, rfl, hx, hmore, h₁⟩

/-- **A loop** passes what follows the element that has decided it. -/
theorem ends_runLoop {items : List Doc} (hi : Doc.AllItems data stop pos items)
    (h : w.Stood data pos) :
    Ends s w (Pass.runLoop bucket mode locals body) fun _ w' => w'.Arrived s data stop := by
  refine (Keeps.exchangeStall.stood h).bind fun outer w₁ h₁ => ?_
  refine (Keeps.stood Keeps.composes.bodyOf h₁).bind fun bodyBucket w₂ h₂ => ?_
  refine (ends_elements hb hi h₂).bind fun verdict w₃ h₃ => ?_
  refine (Keeps.leaveLoop.ends.mono fun _ _ => h₃.returned).bind fun _ w₄ h₄ => ?_
  refine (Keeps.mark.ends.mono fun _ _ => h₄.returned).bind fun _ w₅ h₅ => ?_
  refine Ends.bind
    (Q := fun b w' => b = s.isSettled w'.state ∧ w'.AtVerdict data stop verdict.decider)
    (ends_settled ⟨rfl, h₅⟩) fun b w₆ ⟨hb, h₆⟩ => ?_
  cases b with
  | true => exact ends_pure fun hs => absurd (hs.symm.trans hb.symm) Bool.false_ne_true
  | false => exact (ends_passArray h₆).mono fun _ _ h₇ _ => h₇

end Loops

/-- One of several loops over the same array: it begins where the array begins. -/
theorem ends_runInline {loop : Runner} (hl : loop.Lands s data) {items : List Doc}
    (hi : Doc.AllItems data stop pos items) (hp : pos ≤ data.length) (hw : w.cursor.data = data) :
    Ends s w (Pass.runInline pos loop) fun b w' =>
      if b then s.isSettled w'.state = true else w'.Stood data stop := by
  refine (ends_seek hw hp).bind fun _ w₁ h₁ => ?_
  refine (Keeps.stood Keeps.composes.isUnknown h₁).bind fun u w₂ h₂ => ?_
  cases u with
  | true =>
    refine (hl.run items pos stop w₂ hi h₂).bind fun _ w₃ h₃ => ends_settled ?_
    split
    · next hs => exact hs
    · next hs => exact h₃ ((Bool.not_eq_true _).mp hs)
  | false => exact (ends_skipContainer h₂ hi.leaves).bind fun _ _ h₃ => ends_pure h₃

/-- One loop after the other over the same array, until one settles the walk. -/
theorem ends_inlineLoops {items : List Doc} (hi : Doc.AllItems data stop pos items)
    (hp : pos ≤ data.length) : ∀ {loops : List Runner}, (∀ l ∈ loops, l.Lands s data) →
      loops ≠ [] → ∀ {w : Walker}, w.cursor.data = data →
        Ends s w (Pass.untilSettled (Pass.runInline pos) loops) fun b w' =>
          if b then s.isSettled w'.state = true else w'.Stood data stop
  | [], _, hne, _, _ => absurd rfl hne
  | l :: rest, hl, _, w, hw =>
    (ends_runInline (hl l List.mem_cons_self) hi hp hw).bind fun b w₁ h₁ => by
      cases b with
      | true => exact ends_pure h₁
      | false =>
        cases rest with
        | nil => exact ends_pure h₁
        | cons l' rest =>
          exact ends_inlineLoops hi hp (fun x hx => hl x (List.mem_cons_of_mem l hx))
            (List.cons_ne_nil l' rest) h₁.data

/-- **All loops over an array** end where it does, if there are any. -/
theorem ends_runLoops {loops : List Runner} (hl : ∀ l ∈ loops, l.Lands s data) (hne : loops ≠ [])
    {items : List Doc} (hi : Doc.AllItems data stop pos items) (h : w.Stood data pos) :
    Ends s w (Pass.runLoops loops) fun _ w' => w'.Arrived s data stop := by
  refine Ends.bind (Q := fun v w' => v = w ∧ w' = w) (ends_get ⟨rfl, rfl⟩) fun v w₁ ⟨hv, hw₁⟩ => ?_
  subst hv hw₁
  rw [h.position]
  refine (ends_inlineLoops hi h.inside hl hne h.data).bind fun b w₂ h₂ => ends_pure ?_
  cases b with
  | true => exact fun hs => absurd (hs.symm.trans h₂) Bool.false_ne_true
  | false => exact fun _ => h₂

/-! ## 7. Plans -/

section Values

variable {d : Doc} {make : Bytes → Value}

theorem ends_containerFrom (h : w.Stood data d.stop) :
    Ends s w (Pass.containerFrom make d.opening) fun v w' => w'.HasRead s data d v :=
  (Keeps.stood Keeps.composes.spanFrom h).bind fun _ _ h₁ => (Keeps.get.stood h₁).bind fun _ _ h₂ => ends_pure h₂

theorem ends_closedContainer (hd : d.Lies data) (ho : d.opening.kind.opens = true)
    (h : w.Stood data d.opening.stop) :
    Ends s w (Pass.closedContainer make d.opening) fun v w' => w'.HasRead s data d v :=
  (ends_skipContainer h (hd.inside ho)).bind fun _ _ h₁ => ends_containerFrom h₁

/-- A container that is looked into has been read whole unless the walk is settled. -/
theorem ends_container {inside : Pass Unit} (hs : d.opening.kind.isScalar = false)
    (h : Ends s w inside fun _ w' => w'.Arrived s data d.stop) :
    Ends s w (Pass.container make d.opening inside) fun v w' => w'.HasRead s data d v := by
  refine h.bind fun _ w₁ h₁ => ?_
  refine Ends.bind (Q := fun b w' => b = s.isSettled w'.state ∧ w' = w₁)
    (ends_settled ⟨rfl, rfl⟩) fun b w₂ ⟨hb, hw₂⟩ => ?_
  subst hw₂
  cases b with
  | true => exact ends_pure ⟨hb.symm, hs⟩
  | false => exact ends_containerFrom (h₁ hb.symm)

/-- **However a value is read**, it has been read then. -/
theorem ends_readValue {loops : List Runner} {children : List (String × Handler)}
    (hl : ∀ l ∈ loops, l.Lands s data) (hc : ∀ c ∈ children, c.2.Lands s data)
    (hd : d.Lies data) (h : w.Stood data d.opening.stop) :
    Ends s w (Pass.readValue loops children d.opening) fun v w' => w'.HasRead s data d v := by
  unfold Pass.readValue
  split
  · next hk =>
    split
    · exact ends_closedContainer hd (by rw [hk]; rfl) h
    · refine ends_container (by rw [hk]; rfl) ?_
      cases d with
      | object _ members _ => exact ends_members hc hd.2.2 h
      | scalar t =>
        have hs := hd.1
        rw [show t.kind = .objectStart from hk] at hs
        cases hs
      | array _ _ _ => exact TokenKind.noConfusion (hd.1.symm.trans hk)
  · next hk =>
    split
    · exact ends_closedContainer hd (by rw [hk]; rfl) h
    · next hne =>
      refine ends_container (by rw [hk]; rfl) ?_
      cases d with
      | array _ items _ => exact ends_runLoops hl (fun hn => hne (by rw [hn]; rfl)) hd.2.2 h
      | scalar t =>
        have hs := hd.1
        rw [show t.kind = .arrayStart from hk] at hs
        cases hs
      | object _ _ _ => exact TokenKind.noConfusion (hd.1.symm.trans hk)
  · split
    · next hs =>
      rw [← Doc.stop_of_isScalar hd hs] at h
      exact ends_pure h
    · exact ends_fail

end Values

/-- **The handler of a node lands** wherever its loops and its children do. -/
theorem Handler.lands_ofParts {slot : Option Nat} {tests afterTests : List Test}
    {loops : List Runner} {children : List (String × Handler)}
    {afterLoops : List (Operand × Runner)} (hl : ∀ l ∈ loops, l.Lands s data)
    (hc : ∀ c ∈ children, c.2.Lands s data) (ha : ∀ l ∈ afterLoops, l.2.Lands s data) :
    (Handler.ofParts slot tests loops children afterTests afterLoops).Lands s data := by
  have missing : ∀ c ∈ children, Sift.Keeps Walker.Returned c.2.missing :=
    fun c hm => (hc c hm).missing
  have waiting : Sift.Keeps Walker.Returned (Pass.after afterTests afterLoops) :=
    Sift.Keeps.composes.after (fun _ _ _ => .mark) fun l hm _ => (ha l hm).keeps.runOver_returns
  exact ⟨Sift.Keeps.ofParts (fun l hm => (hl l hm).keeps) (fun c hm => (hc c hm).keeps)
      fun l hm => (ha l hm).keeps,
    fun d w hd h => ends_readValue hl hc hd h,
    fun _ _ => Sift.Keeps.composes.finishValue (fun _ _ _ => .mark) (fun _ _ _ => .mark) missing
      waiting .capture,
    Sift.Keeps.composes.resolveMissing (fun _ _ _ => .mark) (fun _ _ _ => .mark) missing waiting⟩

theorem Loop.lands {l : Loop} (hb : l.body.handler.Lands s data) : l.runner.Lands s data := by
  rw [l.runner_eq]
  exact ⟨.runLoop hb.keeps, fun _ _ _ _ hi h => ends_runLoop hb hi h⟩

/-- **The handler of any node lands.** -/
theorem Node.lands (n : Node) : n.handler.Lands s data := by
  induction n using Node.induct with
  | h n children loops afterLoops =>
    rw [n.handler_eq]
    refine Handler.lands_ofParts (fun r hr => ?_) (fun child hc => ?_) fun r hr => ?_
    · obtain ⟨l, hl, rfl⟩ := List.mem_map.mp hr
      exact Loop.lands (loops l hl)
    · obtain ⟨c, hm, rfl⟩ := List.mem_map.mp hc
      exact children c hm
    · obtain ⟨l, hl, rfl⟩ := List.mem_map.mp hr
      exact Loop.lands (afterLoops l hl)

/-! ## 8. Values told by the grammar -/

/-- The first token of a value has just been read, and the bytes from there on begin with the value
    by the grammar. -/
structure Walker.Opens (d : Doc) (own : Bytes) (w : Walker) : Prop where
  spelled : d.Spelled d.opening.offset own
  here : own <+: w.cursor.data.drop d.opening.offset
  stepped : ∃ c : Cursor, c.step = (.ok d.opening, w.cursor)

namespace Walker.Opens

variable {d : Doc} {own : Bytes}

/-- The value lies there, and the walker stands behind its first token. -/
theorem lies (h : w.Opens d own) : d.Lies w.cursor.data ∧
    d.stop = d.opening.offset + own.length ∧ w.Stood w.cursor.data d.opening.stop := by
  obtain ⟨c, hc⟩ := h.stepped
  obtain ⟨rest, hlex, hdata, hpos⟩ := Cursor.step_ok hc
  obtain ⟨after, hafter⟩ := h.here
  have hn : Token.Next w.cursor.data c.position d.opening :=
    ⟨rest, by rw [hdata, ← c.rest_eq, hlex]⟩
  have hfinish : d.opening.kind ≠ .finish := by
    have hs := h.spelled
    cases d with
    | scalar t => exact (TokenKind.of_isScalar hs.2.2.isScalar).1
    | array o _ _ => rw [Doc.opening, hs.1]; exact TokenKind.noConfusion
    | object o _ _ => rw [Doc.opening, hs.1]; exact TokenKind.noConfusion
  obtain ⟨hlies, hstop⟩ := h.spelled.lies_of_next hafter.symm (hn.again hfinish)
  exact ⟨hlies, hstop, (hn.split hfinish).2.2.1, rfl, hpos⟩

/-- **Every way of reading a value comes to where the value ends.** The walker has just read the
    first token of the value that `own` spells. Passing the value ends one past its last byte.
    Whatever a node does with the value, once that has been done and the walk is not settled, the
    walker stands there too. So it does after any loop over the value, if it is an array, and after
    any number of loops, one after the other. -/
theorem ends_behind (h : w.Opens d own) (s : Setting) :
    (∃ w', (skipValue d.opening : Pass Unit).outcome s w = (.ok (), w') ∧
      w'.cursor.position = d.opening.offset + own.length) ∧
    (∀ (n : Node) (w' : Walker), (n.handler.handle d.opening).outcome s w = (.ok (), w') →
      s.isSettled w'.state = false → w'.cursor.position = d.opening.offset + own.length) ∧
    (d.opening.kind = .arrayStart →
      (∀ (l : Loop) (w' : Walker), l.runner.run.outcome s w = (.ok (), w') →
        s.isSettled w'.state = false → w'.cursor.position = d.opening.offset + own.length) ∧
      ∀ (loops : List Loop) (w' : Walker), loops ≠ [] →
        (Pass.runLoops (runners loops)).outcome s w = (.ok (), w') →
        s.isSettled w'.state = false → w'.cursor.position = d.opening.offset + own.length) := by
  obtain ⟨hlies, hstop, hstood⟩ := h.lies
  rw [← hstop]
  refine ⟨?_, fun n w' ho hs => ?_, fun hk => ?_⟩
  · obtain ⟨w', ho, hw'⟩ := skips_value (s := s) hlies hstood
    exact ⟨w', ho, hw'.position⟩
  · exact ((n.lands.handle hlies hstood () w' ho).arrived hs).position
  · cases d with
    | scalar t =>
      have hscalar := hlies.1
      rw [show t.kind = .arrayStart from hk] at hscalar
      cases hscalar
    | object _ _ _ => exact absurd (hlies.1.symm.trans hk) TokenKind.noConfusion
    | array o items stop =>
      refine ⟨fun l w' ho hs => ?_, fun loops w' hne ho hs => ?_⟩
      · exact ((Loop.lands l.body.lands).run items _ _ w hlies.2.2 hstood () w' ho hs).position
      · rw [runners_eq] at ho
        refine (ends_runLoops (fun r hr => ?_) ?_ hlies.2.2 hstood () w' ho hs).position
        · obtain ⟨l, -, rfl⟩ := List.mem_map.mp hr
          exact Loop.lands l.body.lands
        · exact fun hn => hne (List.map_eq_nil_iff.mp hn)

/-! A loop that its first element decides. -/

/-- The array `[null,null]`. -/
def nulls : Doc := .array ⟨.arrayStart, 0, ['['.toUInt8]⟩
  [.scalar ⟨.null, 1, ['n', 'u', 'l', 'l'].map Char.toUInt8⟩,
    .scalar ⟨.null, 6, ['n', 'u', 'l', 'l'].map Char.toUInt8⟩] 11

/-- The text of the array. -/
def nullsText : Bytes :=
  ['[', 'n', 'u', 'l', 'l', ',', 'n', 'u', 'l', 'l', ']'].map Char.toUInt8

/-- A loop or a leaf. -/
def loopOrLeaf : Resolution.Tree :=
  ⟨#[⟨0, .or, 1, 3⟩, ⟨0, .barrier, 2, 0⟩, ⟨1, .leaf, 0, 0⟩, ⟨0, .leaf, 0, 0⟩], #[4, 3, 3, 4]⟩

/-- The loop asks whether every element is absent. -/
def allAbsent : Loop := ⟨1, .every, .active, ⟨none, [⟨2, .absent .active⟩], [], [], [], []⟩, []⟩

/-- The walker that has read the bracket. -/
def behindBracket : Walker where
  cursor := (Cursor.start nullsText).step.2
  state := .fresh loopOrLeaf
  slots := #[]
  trail := []

theorem opens_behindBracket : behindBracket.Opens nulls nullsText := by
  refine ⟨?_, ?_, Cursor.start nullsText, ?_⟩
  · refine ⟨rfl, rfl, nullsText.tail.dropLast, rfl, [], _, _, rfl, nofun, ⟨rfl, rfl, .null⟩, ?_⟩
    exact ⟨[','.toUInt8], _, [], rfl, ⟨[], [], rfl, nofun, nofun⟩, ⟨rfl, rfl, .null⟩, nofun⟩
  · exact List.prefix_refl _
  · rfl

theorem ends_behind_allAbsent :
    (∃ w', ((Node.handler ⟨none, [], [allAbsent], [], [], []⟩).handle nulls.opening).outcome
      ⟨[0], 12, .standard⟩ behindBracket = (.ok (), w') ∧ w'.cursor.position = 11) ∧
    (∃ w', allAbsent.runner.run.outcome ⟨[0], 12, .standard⟩ behindBracket = (.ok (), w') ∧
      w'.cursor.position = 11) ∧
    ∃ w', (Pass.runLoops (runners [allAbsent, allAbsent])).outcome ⟨[0], 12, .standard⟩
      behindBracket = (.ok (), w') ∧ w'.cursor.position = 11 := by
  obtain ⟨-, hnode, harray⟩ := opens_behindBracket.ends_behind ⟨[0], 12, .standard⟩
  obtain ⟨hloop, hloops⟩ := harray rfl
  have run := outcome_of_fst (s := ⟨[0], 12, .standard⟩) (w := behindBracket)
    (m := (Node.handler ⟨none, [], [allAbsent], [], [], []⟩).handle nulls.opening) (by cbv)
  have runOne := outcome_of_fst (s := ⟨[0], 12, .standard⟩) (w := behindBracket)
    (m := allAbsent.runner.run) (by cbv)
  have runBoth := outcome_of_fst (s := ⟨[0], 12, .standard⟩) (w := behindBracket)
    (m := Pass.runLoops (runners [allAbsent, allAbsent])) (by cbv)
  exact ⟨⟨_, run, hnode _ _ run (by cbv)⟩, ⟨_, runOne, hloop _ _ runOne (by cbv)⟩,
    _, runBoth, hloops _ _ (List.cons_ne_nil _ _) runBoth (by cbv)⟩

end Walker.Opens

end Sift
