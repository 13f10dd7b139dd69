import Sift.Proofs.Document.Order
import Sift.Proofs.Grammar.Documents

/-!
# Containers along their tokens

Two containers are compared token by token, and no tree is ever made of them. Yet the order is that
of the trees (`Doc.Text.compareContainers`): up to the first difference the two token streams are at
the same place of the same nesting, and there the ranks of the tokens are those of the trees.

The induction is on the first tree. What it says of a tree is said of the tokens from its first on:
they compare as the trees do, and where these are equal the comparison goes on behind them.
-/

namespace Sift

variable {D : Decimals} {data data' : Bytes} {pos pos' : Nat} {t t' : Token}

/-! ## 1. Streams -/

/-- The tokens from a position on. -/
def Token.ahead (data : Bytes) (pos : Nat) : List Token := Token.stream pos (data.drop pos)

theorem Token.ahead_zero (data : Bytes) : Token.ahead data 0 = Token.stream 0 data := rfl

/-- The next token is the first of them. -/
theorem Token.Next.ahead (h : Token.Next data pos t) (hk : t.kind ≠ .finish) :
    Token.ahead data pos = t :: Token.ahead data t.stop := by
  obtain ⟨rest, h⟩ := h
  obtain ⟨hle, hrest⟩ := Token.lex_ends h
  dsimp only at hle hrest
  rw [Token.ahead, Token.stream]
  split
  · next h' =>
    rw [h] at h'
    cases h'
  · next h' =>
    rw [h] at h'
    cases h'
    rw [dif_neg hk, hrest, List.drop_drop, Nat.add_sub_cancel' hle]
    rfl

/-- At the end there is nothing but the end. -/
theorem Token.Next.ahead_finish (h : Token.Next data pos t) (hk : t.kind = .finish) :
    Token.ahead data pos = [t] := by
  obtain ⟨rest, h⟩ := h
  rw [Token.ahead, Token.stream]
  split
  · next h' =>
    rw [h] at h'
    cases h'
  · next h' =>
    rw [h] at h'
    cases h'
    rw [dif_pos hk]

namespace Value

/-- What comes of a comparison that goes on where it tells nothing apart. -/
def goOn (o : Ordering) (rest : Option Ordering) : Option Ordering :=
  match o with
  | .eq => rest
  | o => some o

theorem goOn_then (o o' : Ordering) (rest : Option Ordering) :
    goOn (o.then o') rest = goOn o (goOn o' rest) := by
  cases o <;> rfl

variable {l r : List Token}

theorem compareTokens?_scalars (h : t.kind.isScalar = true) (h' : t'.kind.isScalar = true) :
    compareTokens? D (t :: l) (t' :: r) =
      goOn (compareScalars D (ofToken t) (ofToken t')) (compareTokens? D l r) := by
  rw [compareTokens?, h, h', Bool.and_true, if_pos rfl]
  cases compareScalars D (ofToken t) (ofToken t') <;> rfl

/-- Two tokens of one kind, which is no scalar. -/
theorem compareTokens?_same (h : t.kind = t'.kind) (hs : t.kind.isScalar = false)
    (hf : t.kind ≠ .finish) : compareTokens? D (t :: l) (t' :: r) = compareTokens? D l r := by
  rw [compareTokens?, hs, Bool.false_and, if_neg Bool.false_ne_true, if_neg fun hne => hne h,
    if_neg hf]

theorem structuralRank_scalar {kind : TokenKind} (h : kind.isScalar = true) :
    structuralRank kind = 4 := by
  cases kind <;> first
    | rfl
    | cases h

/-- Two tokens of different ranks. -/
theorem compareTokens?_differ (h : structuralRank t.kind ≠ structuralRank t'.kind) :
    compareTokens? D (t :: l) (t' :: r) =
      some (Ord.compare (structuralRank t.kind) (structuralRank t'.kind)) := by
  have hs : ¬(t.kind.isScalar && t'.kind.isScalar) = true := fun hs => by
    obtain ⟨hs, hs'⟩ := (Bool.and_eq_true _ _).mp hs
    exact h ((structuralRank_scalar hs).trans (structuralRank_scalar hs').symm)
  have hkind : t.kind ≠ t'.kind := fun hk => h (congrArg structuralRank hk)
  rw [compareTokens?, if_neg hs, if_pos hkind]

/-! ## 2. Any two streams -/

/-- Two streams compared the other way round. -/
theorem compareTokens?_swap : ∀ l r : List Token,
    compareTokens? D r l = (compareTokens? D l r).map Ordering.swap
  | [], [] => rfl
  | [], _ :: _ => rfl
  | _ :: _, [] => rfl
  | a :: l, b :: r => by
    have ih := compareTokens?_swap l r
    rw [compareTokens?, compareTokens?, Bool.and_comm b.kind.isScalar]
    split
    · rw [compareScalars_swap (ofToken a) (ofToken b)]
      cases compareScalars D (ofToken a) (ofToken b) with
      | eq => exact ih
      | lt => rfl
      | gt => rfl
    · by_cases hkind : a.kind = b.kind
      · rw [if_neg (not_not_intro hkind.symm), if_neg (not_not_intro hkind), hkind]
        split
        · rfl
        · exact ih
      · rw [if_pos (Ne.symm hkind), if_pos hkind]
        exact congrArg some Std.OrientedOrd.eq_swap

/-- A stream and itself tell nothing apart. -/
theorem compareTokens?_self : ∀ l : List Token, (compareTokens? D l l).getD .eq = .eq
  | [] => rfl
  | a :: l => by
    have ih := compareTokens?_self l
    rw [compareTokens?]
    split
    · rw [compareScalars_self]
      exact ih
    · rw [if_neg fun hne => hne rfl]
      split
      · rfl
      · exact ih

theorem compareContainers_swap (l r : Bytes) :
    compareContainers D r l = (compareContainers D l r).swap := by
  rw [compareContainers, compareContainers, compareTokens?_swap (Token.stream 0 l),
    compareBytes_swap]
  cases compareTokens? D (Token.stream 0 l) (Token.stream 0 r) <;> rfl

theorem compareContainers_self (l : Bytes) : compareContainers D l l = .eq := by
  have hself := compareTokens?_self (D := D) (Token.stream 0 l)
  rw [compareContainers, show compareBytes l l = .eq from Std.ReflCmp.compare_self]
  exact hself

end Value

/-! ## 3. Tokens at the same place -/

section Places

open Value Token

variable {kind : TokenKind} {stop stop' : Nat}

/-- The same sign stands before the next tokens, and tells nothing apart. -/
theorem compare_sign (hs : kind.isScalar = false) (hf : kind ≠ .finish)
    (h : ∃ s, Next data pos s ∧ s.kind = kind ∧ Next data s.stop t)
    (h' : ∃ s, Next data' pos' s ∧ s.kind = kind ∧ Next data' s.stop t') :
    ∃ mid mid', Next data mid t ∧ Next data' mid' t' ∧
      compareTokens? D (ahead data pos) (ahead data' pos') =
        compareTokens? D (ahead data mid) (ahead data' mid') := by
  obtain ⟨s, hn, rfl, ht⟩ := h
  obtain ⟨s', hn', hk, ht'⟩ := h'
  refine ⟨_, _, ht, ht', ?_⟩
  rw [hn.ahead hf, hn'.ahead (hk ▸ hf), compareTokens?_same hk.symm hs hf]

theorem rank_closes (hc : kind.closes = true) :
    kind.isScalar = false ∧ kind ≠ .finish ∧ structuralRank kind = 1 := by
  cases kind <;> first
    | exact ⟨rfl, TokenKind.noConfusion, rfl⟩
    | cases hc

/-- Two containers of one kind stop at the same time. -/
theorem compare_closes (hc : kind.closes = true) (h : Closes data kind pos stop)
    (h' : Closes data' kind pos' stop') : compareTokens? D (ahead data pos) (ahead data' pos') =
      compareTokens? D (ahead data stop) (ahead data' stop') := by
  obtain ⟨hs, hf, -⟩ := rank_closes hc
  obtain ⟨s, hn, rfl, rfl⟩ := h
  obtain ⟨s', hn', hk, rfl⟩ := h'
  rw [hn.ahead hf, hn'.ahead (hk ▸ hf), compareTokens?_same hk.symm hs hf]

/-- The first container stops, and the second does not. -/
theorem compare_shorter (hc : kind.closes = true) (h : Closes data kind pos stop)
    (h' : Next data' pos' t) (ht : 1 < structuralRank t.kind) :
    compareTokens? D (ahead data pos) (ahead data' pos') = some .lt := by
  obtain ⟨-, hf, hrank⟩ := rank_closes hc
  obtain ⟨s, hn, rfl, rfl⟩ := h
  have hft : t.kind ≠ .finish := fun hk => by
    rw [hk] at ht
    cases ht
  rw [hn.ahead hf, h'.ahead hft, compareTokens?_differ (by omega), hrank, Nat.compare_eq_lt.mpr ht]

/-- The second container stops, and the first does not. -/
theorem compare_longer (hc : kind.closes = true) (h : Next data pos t)
    (ht : 1 < structuralRank t.kind) (h' : Closes data' kind pos' stop') :
    compareTokens? D (ahead data pos) (ahead data' pos') = some .gt := by
  rw [compareTokens?_swap, compare_shorter hc h' h ht]
  rfl

theorem Introduces.rank_lt {key : Token} (h : Introduces data key t) :
    1 < structuralRank key.kind := by
  rw [structuralRank_scalar (TokenKind.isScalar_of_isString h.1)]
  decide

/-- The keys of two members, up to the values. -/
theorem compare_keys {key key' : Token} (hn : Next data pos key) (hn' : Next data' pos' key')
    (h : Introduces data key t) (h' : Introduces data' key' t') :
    ∃ mid mid', Next data mid t ∧ Next data' mid' t' ∧
      compareTokens? D (ahead data pos) (ahead data' pos') =
        goOn (compareScalars D (ofToken key) (ofToken key'))
          (compareTokens? D (ahead data mid) (ahead data' mid')) := by
  have hs := TokenKind.isScalar_of_isString h.1
  have hs' := TokenKind.isScalar_of_isString h'.1
  obtain ⟨mid, mid', ht, ht', hcolon⟩ := compare_sign rfl TokenKind.noConfusion h.2 h'.2
  refine ⟨mid, mid', ht, ht', ?_⟩
  rw [hn.ahead (TokenKind.of_isScalar hs).1, hn'.ahead (TokenKind.of_isScalar hs').1,
    compareTokens?_scalars hs hs', hcolon]

theorem Continues.rank (h : Continues data pos t) :
    ∃ s, Next data pos s ∧ 1 < structuralRank s.kind := by
  obtain ⟨s, hn, hk, -⟩ := h
  exact ⟨s, hn, by rw [hk]; decide⟩

end Places

namespace Doc

open Value Token

/-! ## 4. Trees -/

theorem Lies.rank {x : Doc} (h : x.Lies data) :
    structuralRank x.opening.kind = 4 + x.sort := by
  cases x with
  | scalar t => exact structuralRank_scalar h.1
  | array o xs stop => rw [opening, h.1]; rfl
  | object o xs stop => rw [opening, h.1]; rfl

theorem Lies.rank_lt {x : Doc} (h : x.Lies data) : 1 < structuralRank x.opening.kind := by
  rw [h.rank]
  omega

/-- Trees of different kinds differ in their first tokens. -/
theorem compare_sorts {x y : Doc} (hx : x.Lies data) (hy : y.Lies data')
    (hnx : Next data pos x.opening) (hny : Next data' pos' y.opening) (h : x.sort ≠ y.sort)
    (rest : Option Ordering) :
    compareTokens? D (ahead data pos) (ahead data' pos') = goOn (x.order D y) rest := by
  have hrank : structuralRank x.opening.kind ≠ structuralRank y.opening.kind := by
    rw [hx.rank, hy.rank]
    omega
  rw [hnx.ahead hx.ne_finish, hny.ahead hy.ne_finish, compareTokens?_differ hrank, hx.rank, hy.rank,
    order_eq]
  rcases Nat.lt_or_gt_of_ne h with hlt | hgt
  · rw [Nat.compare_eq_lt.mpr hlt, Nat.compare_eq_lt.mpr (by omega)]
    rfl
  · rw [Nat.compare_eq_gt.mpr hgt, Nat.compare_eq_gt.mpr (by omega)]
    rfl

mutual

/-- **Two values along their tokens** compare as trees, and go on behind them if they are equal. -/
theorem compare_ahead : ∀ {x y : Doc} {pos pos' : Nat}, x.Lies data → y.Lies data' →
    Next data pos x.opening → Next data' pos' y.opening →
      compareTokens? D (ahead data pos) (ahead data' pos') =
        goOn (x.order D y) (compareTokens? D (ahead data x.stop) (ahead data' y.stop))
  | .scalar s, y, pos, pos', hx, hy, hnx, hny => by
    cases y with
    | scalar t =>
      rw [hnx.ahead hx.ne_finish, hny.ahead hy.ne_finish]
      exact compareTokens?_scalars hx.1 hy.1
    | _ => exact compare_sorts hx hy hnx hny (by simp [sort]) _
  | .array o xs stop, y, pos, pos', hx, hy, hnx, hny => by
    cases y with
    | array o' ys stop' =>
      have hs : o.kind.isScalar = false := by rw [hx.1]; rfl
      rw [hnx.ahead hx.ne_finish, hny.ahead hy.ne_finish]
      exact (compareTokens?_same (hx.1.trans hy.1.symm) hs hx.ne_finish).trans
        (compare_items hx.2.2 hy.2.2)
    | _ => exact compare_sorts hx hy hnx hny (by simp [sort]) _
  | .object o xs stop, y, pos, pos', hx, hy, hnx, hny => by
    cases y with
    | object o' ys stop' =>
      have hs : o.kind.isScalar = false := by rw [hx.1]; rfl
      rw [hnx.ahead hx.ne_finish, hny.ahead hy.ne_finish]
      exact (compareTokens?_same (hx.1.trans hy.1.symm) hs hx.ne_finish).trans
        (compare_members hx.2.2 hy.2.2)
    | _ => exact compare_sorts hx hy hnx hny (by simp [sort]) _

theorem compare_items : ∀ {xs ys : List Doc} {pos pos' stop stop' : Nat},
    AllItems data stop pos xs → AllItems data' stop' pos' ys →
      compareTokens? D (ahead data pos) (ahead data' pos') =
        goOn (orderItems D xs ys) (compareTokens? D (ahead data stop) (ahead data' stop'))
  | [], ys, pos, pos', stop, stop', hx, hy => by
    cases ys with
    | nil => exact compare_closes rfl hx hy
    | cons y ys => exact compare_shorter rfl hx hy.1 hy.2.1.rank_lt
  | x :: xs, ys, pos, pos', stop, stop', hx, hy => by
    cases ys with
    | nil => exact compare_longer rfl hx.1 hx.2.1.rank_lt hy
    | cons y ys =>
      rw [compare_ahead hx.2.1 hy.2.1 hx.1 hy.1, compare_moreItems hx.2.2 hy.2.2, ← goOn_then]
      rfl

theorem compare_moreItems : ∀ {xs ys : List Doc} {pos pos' stop stop' : Nat},
    MoreItems data stop pos xs → MoreItems data' stop' pos' ys →
      compareTokens? D (ahead data pos) (ahead data' pos') =
        goOn (orderItems D xs ys) (compareTokens? D (ahead data stop) (ahead data' stop'))
  | [], ys, pos, pos', stop, stop', hx, hy => by
    cases ys with
    | nil => exact compare_closes rfl hx hy
    | cons y ys =>
      obtain ⟨s, hn, hrank⟩ := hy.1.rank
      exact compare_shorter rfl hx hn hrank
  | x :: xs, ys, pos, pos', stop, stop', hx, hy => by
    cases ys with
    | nil =>
      obtain ⟨s, hn, hrank⟩ := hx.1.rank
      exact compare_longer rfl hn hrank hy
    | cons y ys =>
      obtain ⟨mid, mid', hnx, hny, hsign⟩ := compare_sign rfl TokenKind.noConfusion hx.1 hy.1
      rw [hsign, compare_ahead hx.2.1 hy.2.1 hnx hny, compare_moreItems hx.2.2 hy.2.2, ← goOn_then]
      rfl

theorem compare_members : ∀ {xs ys : List (Token × Doc)} {pos pos' stop stop' : Nat},
    AllMembers data stop pos xs → AllMembers data' stop' pos' ys →
      compareTokens? D (ahead data pos) (ahead data' pos') =
        goOn (orderMembers D xs ys) (compareTokens? D (ahead data stop) (ahead data' stop'))
  | [], ys, pos, pos', stop, stop', hx, hy => by
    cases ys with
    | nil => exact compare_closes rfl hx hy
    | cons y ys => exact compare_shorter rfl hx hy.1 hy.2.1.rank_lt
  | (key, x) :: xs, ys, pos, pos', stop, stop', hx, hy => by
    cases ys with
    | nil => exact compare_longer rfl hx.1 hx.2.1.rank_lt hy
    | cons y ys =>
      obtain ⟨mid, mid', hnx, hny, hkeys⟩ := compare_keys hx.1 hy.1 hx.2.1 hy.2.1
      rw [hkeys, compare_ahead hx.2.2.1 hy.2.2.1 hnx hny, compare_moreMembers hx.2.2.2 hy.2.2.2,
        ← goOn_then, ← goOn_then]
      rfl

theorem compare_moreMembers : ∀ {xs ys : List (Token × Doc)} {pos pos' stop stop' : Nat},
    MoreMembers data stop pos xs → MoreMembers data' stop' pos' ys →
      compareTokens? D (ahead data pos) (ahead data' pos') =
        goOn (orderMembers D xs ys) (compareTokens? D (ahead data stop) (ahead data' stop'))
  | [], ys, pos, pos', stop, stop', hx, hy => by
    cases ys with
    | nil => exact compare_closes rfl hx hy
    | cons y ys =>
      obtain ⟨s, hn, hrank⟩ := hy.1.rank
      exact compare_shorter rfl hx hn hrank
  | (key, x) :: xs, ys, pos, pos', stop, stop', hx, hy => by
    cases ys with
    | nil =>
      obtain ⟨s, hn, hrank⟩ := hx.1.rank
      exact compare_longer rfl hn hrank hy
    | cons y ys =>
      obtain ⟨_, _, hnx, hny, hsign⟩ := compare_sign rfl TokenKind.noConfusion hx.1 hy.1
      obtain ⟨mid, mid', hnx, hny, hkeys⟩ := compare_keys hnx hny hx.2.1 hy.2.1
      rw [hsign, hkeys, compare_ahead hx.2.2.1 hy.2.2.1 hnx hny,
        compare_moreMembers hx.2.2.2 hy.2.2.2, ← goOn_then, ← goOn_then]
      rfl

end

/-- **Documents along their tokens** compare as trees do. -/
theorem Whole.compareTokens? {d d' : Doc} (h : d.Whole data) (h' : d'.Whole data') :
    Value.compareTokens? D (stream 0 data) (stream 0 data') = some (d.order D d') := by
  obtain ⟨hn, hlies, t, ht, hk⟩ := h
  obtain ⟨hn', hlies', t', ht', hk'⟩ := h'
  have hmain := compare_ahead (D := D) hlies hlies' hn hn'
  have hfinish : Value.compareTokens? D [t] [t'] = some .eq := by
    have hs : t.kind.isScalar = false := by rw [hk]; rfl
    rw [Value.compareTokens?, hs, Bool.false_and, if_neg Bool.false_ne_true,
      if_neg fun hne => hne (hk.trans hk'.symm), if_pos hk]
  rw [ht.ahead_finish hk, ht'.ahead_finish hk', hfinish] at hmain
  rw [← ahead_zero, ← ahead_zero, hmain]
  cases d.order D d' <;> rfl

/-- **Containers compare as trees.** No text is compared byte by byte. -/
theorem Text.compareContainers {d d' : Doc} (h : d.Text data) (h' : d'.Text data') :
    Value.compareContainers D data data' = d.order D d' := by
  rw [Value.compareContainers, h.whole.compareTokens? h'.whole, Option.getD_some]

end Doc

end Sift
