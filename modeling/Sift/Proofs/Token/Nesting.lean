import Sift.Proofs.Token.Stepping
import Sift.Proofs.Token.Skipping

/-!
# Skipping by brackets and by tokens

To leave the container that it stands in a cursor counts brackets among the bytes. The same can be
told by the tokens that it would read: the depth is one to begin with, and the container is left
with the token after which it is zero for the first time.

`Cursor.skipContainer_follows_tokens`: the two agree, for a container that ends as for one that
does not. What a string holds, escapes and brackets included, is one token and changes no depth.
-/

namespace Sift.Cursor

open Token

/-! ## 1. Depth -/

/-- The depth after a token, from the depth before it. -/
def deepen (depth : Nat) (t : Token) : Nat :=
  if t.kind.opens then depth + 1 else if t.kind.closes then depth - 1 else depth

/-- The depth after tokens that are read inside a container. -/
def depthAfter (tokens : List Token) : Nat := tokens.foldl deepen 1

theorem depthAfter_concat (tokens : List Token) (t : Token) :
    depthAfter (tokens ++ [t]) = deepen (depthAfter tokens) t := by
  rw [depthAfter, List.foldl_append]
  rfl

/-! ## 2. Skipping what is read -/

variable {c c' : Cursor} {t : Token} {tokens : List Token} {off depth n : Nat}

/-- What is left to be skipped at a depth is what is left past the next token, at the depth after
    it. -/
theorem leave_step (h : c.step = (.ok t, c')) :
    leave off (depth + 1) n c.rest =
      leave off (deepen (depth + 1) t) (n + (c'.position - c.position)) c'.rest := by
  obtain ⟨hl, -, hp, -⟩ := step_lex h
  have hskip : leave off (depth + 1) n c.rest =
      skipPast off depth (n + (c'.position - c.position)) t.kind c'.rest := by
    rw [hp]
    exact skip_lex hl
  rw [hskip, skipPast, deepen]
  cases hopens : t.kind.opens with
  | true => rfl
  | false =>
    cases hcloses : t.kind.closes with
    | true => rfl
    | false => rfl

/-- **As long as the depth stays above zero** what is left to be skipped is what is left past the
    tokens. -/
theorem Steps.leave_eq (h : c.Steps tokens c') (hc : c.Inside)
    (hopen : ∀ before, before <+: tokens → before ≠ tokens → before.foldl deepen depth ≠ 0) :
    leave off depth n c.rest =
      leave off (tokens.foldl deepen depth) (n + (c'.position - c.position)) c'.rest := by
  induction h generalizing depth n with
  | none => rw [Nat.sub_self, Nat.add_zero, List.foldl_nil]
  | @more c c₁ c' t tokens first rest ih =>
    obtain ⟨-, hin, hp, hle, -⟩ := step_bounds first hc
    have hlen : t.stop = t.offset + t.text.length := rfl
    have hle' := (rest.bounds hin).2.1
    have hdepth : depth ≠ 0 := hopen [] List.nil_prefix (List.cons_ne_nil t tokens).symm
    obtain ⟨depth, rfl⟩ := Nat.exists_eq_succ_of_ne_zero hdepth
    have hopen' : ∀ before, before <+: tokens → before ≠ tokens →
        before.foldl deepen (deepen (depth + 1) t) ≠ 0 := fun before hb hne =>
      hopen (t :: before) ((List.prefix_cons_inj t).mpr hb) fun he => hne (List.cons.inj he).2
    rw [leave_step first, ih hin hopen', List.foldl_cons,
      show n + (c₁.position - c.position) + (c'.position - c₁.position) =
        n + (c'.position - c.position) by omega]

/-! ## 3. Leaving a container -/

theorem skipContainer_of_leave (h : leave c.position 1 0 c.rest = .ok n) :
    c.skipContainer.1 = .ok (c.position + n) ∧ c.skipContainer.2.position = c.position + n := by
  unfold skipContainer
  split
  · next hs =>
    obtain rfl := Except.ok.inj (hs.symm.trans h)
    exact ⟨rfl, rfl⟩
  · next hs => cases hs.symm.trans h

theorem skipContainer_of_leave_error {e : LexError} (h : leave c.position 1 0 c.rest = .error e) :
    c.skipContainer = (.error e, c) := by
  unfold skipContainer
  split
  · next hs => cases hs.symm.trans h
  · next hs => rw [Except.error.inj (hs.symm.trans h)]

/-- **Skipping agrees with reading.** If the depth is above zero up to the last token that is read,
    the container is left with that token if it is zero after it, and cannot be left if that token
    is the end. -/
theorem skipContainer_follows_tokens (hc : c.Inside) (h : c.Steps (tokens ++ [t]) c')
    (hopen : ∀ before, before <+: tokens → depthAfter before ≠ 0) :
    (depthAfter (tokens ++ [t]) = 0 →
      c.skipContainer.1 = .ok t.stop ∧ c.skipContainer.2.position = t.stop) ∧
    (t.kind = .finish → c.skipContainer = (.error (.unexpectedEnd c.data.length), c)) := by
  have hp := h.position_eq
  have hle := (h.bounds hc).2.1
  have hleave : leave c.position 1 0 c.rest =
      leave c.position (depthAfter (tokens ++ [t])) (0 + (c'.position - c.position)) c'.rest :=
    h.leave_eq hc fun before hb hne =>
      hopen before ((List.prefix_concat_iff.mp hb).resolve_left hne)
  have hstop : c.position + (0 + (c'.position - c.position)) = t.stop := by omega
  constructor
  · intro hzero
    rw [hzero] at hleave
    rw [← hstop]
    exact skipContainer_of_leave hleave
  · intro hk
    obtain ⟨mid, hbefore, hlast⟩ := Steps.append_iff.mp h
    obtain _ | ⟨first, ⟨⟩⟩ := hlast
    have hend := (next_of_step first).stop_eq (hbefore.bounds hc).1 hk
    rw [hbefore.data_eq] at hend
    have hnil : c'.rest = [] := by
      rw [c'.rest_eq, h.data_eq, hp, hend]
      exact List.drop_length
    have hdepth : depthAfter (tokens ++ [t]) = depthAfter tokens := by
      rw [depthAfter_concat, deepen, hk]
      rfl
    obtain ⟨depth, hsucc⟩ := Nat.exists_eq_succ_of_ne_zero (hopen tokens (List.prefix_refl _))
    rw [hdepth, hsucc, hnil] at hleave
    refine skipContainer_of_leave_error (hleave.trans ?_)
    rw [leave, skip, hstop, hend]

/-- The inside of an array up to where its end is missing: a string of a quote and a bracket, and an
    empty array. -/
def unclosed : Bytes := ['"', '\\', '"', ']', '"', ',', '[', ']'].map Char.toUInt8

/-- Its tokens. -/
def unclosedTokens : List Token :=
  [⟨.escString, 0, ['"', '\\', '"', ']', '"'].map Char.toUInt8⟩, ⟨.listDelim, 5, [','.toUInt8]⟩,
    ⟨.arrayStart, 6, ['['.toUInt8]⟩, ⟨.arrayEnd, 7, [']'.toUInt8]⟩]

/-- The bracket in the string and the one of the inner array do not close the outer one. -/
theorem skipContainer_follows_tokens_unclosed : ∃ closed broken,
    (start (unclosed ++ [']'.toUInt8])).Steps (unclosedTokens ++ [⟨.arrayEnd, 8, [']'.toUInt8]⟩])
      closed ∧
    (start unclosed).Steps (unclosedTokens ++ [⟨.finish, 8, []⟩]) broken ∧
    (∀ before, before <+: unclosedTokens → depthAfter before ≠ 0) ∧
    depthAfter (unclosedTokens ++ [⟨.arrayEnd, 8, [']'.toUInt8]⟩]) = 0 ∧
    (start (unclosed ++ [']'.toUInt8])).skipContainer.1 = .ok 9 ∧
    (start unclosed).skipContainer = (.error (.unexpectedEnd 8), start unclosed) := by
  have hopen : ∀ before, before <+: unclosedTokens → depthAfter before ≠ 0 := fun before hb => by
    have htake : ∀ n ≤ 4, depthAfter (unclosedTokens.take n) ≠ 0 := by decide
    rw [List.prefix_iff_eq_take.mp hb]
    exact htake _ hb.length_le
  have hclosed : (start (unclosed ++ [']'.toUInt8])).Steps
      (unclosedTokens ++ [⟨.arrayEnd, 8, [']'.toUInt8]⟩]) _ :=
    .more rfl (.more rfl (.more rfl (.more rfl (.more rfl .none))))
  have hbroken : (start unclosed).Steps (unclosedTokens ++ [⟨.finish, 8, []⟩]) _ :=
    .more rfl (.more rfl (.more rfl (.more rfl (.more rfl .none))))
  have hzero : depthAfter (unclosedTokens ++ [⟨.arrayEnd, 8, [']'.toUInt8]⟩]) = 0 := by decide
  exact ⟨_, _, hclosed, hbroken, hopen, hzero,
    ((skipContainer_follows_tokens (Nat.zero_le _) hclosed hopen).1 hzero).1,
    (skipContainer_follows_tokens (Nat.zero_le _) hbroken hopen).2 rfl⟩

end Sift.Cursor
