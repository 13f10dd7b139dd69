import Sift.Proofs.Token.Lexing

/-!
# The bounds of a cursor

A step and the skipping of a container stay inside the document and go forward; seeking goes where
it is told. None of them touches the document.
-/

namespace Sift.Cursor

variable {c c' : Cursor} {token : Token}

/-- The position lies in the document or at its end. -/
def Inside (c : Cursor) : Prop := c.position ≤ c.data.length

theorem length_rest (c : Cursor) : c.rest.length = c.data.length - c.position := by
  rw [c.rest_eq, List.length_drop]

/-! ## 1. Steps -/

/-- What a step leaves, told by what is read. -/
theorem step_ok (h : c.step = (.ok token, c')) :
    ∃ rest, Token.lex c.position c.rest = .ok (token, rest) ∧ c'.data = c.data ∧
      c'.position = token.stop := by
  unfold step at h
  split at h
  · next h' =>
    cases h
    exact ⟨_, h', rfl, rfl⟩
  · cases h

theorem step_error {e : LexError} (h : c.step = (.error e, c')) :
    c'.data = c.data ∧ c'.position = c.position := by
  unfold step at h
  split at h
  · cases h
  · cases h
    exact ⟨rfl, rfl⟩

/-- **A step goes forward to a token in the document**, which has a byte unless it is the end. -/
theorem step_bounds (h : c.step = (.ok token, c')) (hc : c.Inside) :
    c'.data = c.data ∧ c'.Inside ∧ c'.position = token.stop ∧ c.position ≤ token.offset ∧
      (token.kind ≠ .finish → token.offset < token.stop) := by
  obtain ⟨rest, hl, hd, hp⟩ := step_ok h
  obtain ⟨gap, _, hs, ho, _, hk⟩ := Token.lex_split hl
  have hlen := congrArg List.length hs
  simp only [List.length_append, length_rest] at hlen
  have hstop : token.stop = token.offset + token.text.length := rfl
  unfold Inside at hc ⊢
  refine ⟨hd, by rw [hp, hd]; omega, hp, by omega, fun hne => ?_⟩
  rcases hk with hk | hk
  · exact absurd hk.1 hne
  · have := hk.pos
    omega

/-- A step does not touch the document, also where it fails. -/
theorem step_data (c : Cursor) : c.step.2.data = c.data := by
  unfold step
  split <;> rfl

/-- A step never goes back, also where it fails. -/
theorem step_advances (hc : c.Inside) : c.step.2.Inside ∧ c.position ≤ c.step.2.position := by
  rcases hs : c.step with ⟨e | token, c'⟩
  · obtain ⟨hd, hp⟩ := step_error hs
    unfold Inside
    rw [hd, hp]
    exact ⟨hc, Nat.le_refl _⟩
  · obtain ⟨-, hin, hp, hle, -⟩ := step_bounds hs hc
    have hstop : token.stop = token.offset + token.text.length := rfl
    exact ⟨hin, by rw [hp]; omega⟩

/-! ## 2. Skipping -/

/-- Skipping takes at least one byte, and at most all there are. -/
theorem skip_bounds {offset m : Nat} : ∀ {bytes : Bytes} {place : SkipPlace} {n : Nat},
    skip offset place n bytes = .ok m → n < m ∧ m ≤ n + bytes.length
  | [], place, n, h => by cases place <;> cases h
  | b :: rest, .between depth, n, h => by
    have next {place : SkipPlace} (h : skip offset place (n + 1) rest = .ok m) :
        n < m ∧ m ≤ n + (b :: rest).length := by
      have := skip_bounds h
      rw [List.length_cons]
      omega
    unfold skip at h
    split at h
    · exact next h
    · split at h
      · exact next h
      · split at h
        · cases depth with
          | zero =>
            cases h
            rw [List.length_cons]
            omega
          | succ depth => exact next h
        · exact next h
  | b :: rest, .inString start depth, n, h => by
    have next {place : SkipPlace} (h : skip offset place (n + 1) rest = .ok m) :
        n < m ∧ m ≤ n + (b :: rest).length := by
      have := skip_bounds h
      rw [List.length_cons]
      omega
    unfold skip at h
    split at h
    · exact next h
    · split at h
      · exact next h
      · exact next h
  | b :: rest, .escaped start depth, n, h => by
    unfold skip at h
    have := skip_bounds h
    rw [List.length_cons]
    omega

theorem skipContainer_ok {stop : Nat} (h : c.skipContainer = (.ok stop, c')) :
    ∃ n, skip c.position (.between 0) 0 c.rest = .ok n ∧ c'.data = c.data ∧
      c'.position = c.position + n := by
  unfold skipContainer at h
  split at h
  · next h' =>
    cases h
    exact ⟨_, h', rfl, rfl⟩
  · cases h

theorem skipContainer_error {e : LexError} (h : c.skipContainer = (.error e, c')) : c' = c := by
  unfold skipContainer at h
  split at h
  · cases h
  · cases h
    rfl

/-- Skipping a container does not touch the document, also where it fails. -/
theorem skipContainer_data (c : Cursor) : c.skipContainer.2.data = c.data := by
  unfold skipContainer
  split <;> rfl

/-- **Skipping a container goes forward inside the document.** -/
theorem skipContainer_bounds {stop : Nat} (h : c.skipContainer = (.ok stop, c')) (hc : c.Inside) :
    c'.data = c.data ∧ c'.Inside ∧ c.position < c'.position := by
  obtain ⟨n, hs, hd, hp⟩ := skipContainer_ok h
  have := skip_bounds hs
  rw [length_rest] at this
  unfold Inside at hc ⊢
  exact ⟨hd, by rw [hp, hd]; omega, by omega⟩

/-- Skipping a container never goes back, also where it fails. -/
theorem skipContainer_advances (hc : c.Inside) :
    c.skipContainer.2.Inside ∧ c.position ≤ c.skipContainer.2.position := by
  rcases hs : c.skipContainer with ⟨e | stop, c'⟩
  · rw [skipContainer_error hs]
    exact ⟨hc, Nat.le_refl _⟩
  · obtain ⟨-, hin, hlt⟩ := skipContainer_bounds hs hc
    exact ⟨hin, Nat.le_of_lt hlt⟩

/-! ## 3. Seeking -/

theorem seek_data (c : Cursor) (position : Nat) : (c.seek position).data = c.data := rfl

theorem seek_position {position : Nat} (h : position ≤ c.data.length) :
    (c.seek position).position = position := Nat.min_eq_left h

theorem seek_inside (c : Cursor) (position : Nat) : (c.seek position).Inside :=
  Nat.min_le_right _ _

/-! ## 4. Two cursors at one place -/

/-- Two cursors stand at the same place of the same document. They may have come there by different
    numbers of steps. -/
structure Same (c c' : Cursor) : Prop where
  data : c'.data = c.data
  position : c'.position = c.position

namespace Same

theorem rest (h : c.Same c') : c'.rest = c.rest := by rw [c'.rest_eq, c.rest_eq, h.data, h.position]

theorem lex (h : c.Same c') : Token.lex c'.position c'.rest = Token.lex c.position c.rest := by
  rw [h.position, h.rest]

theorem skip (h : c.Same c') {place : SkipPlace} :
    Cursor.skip c'.position place 0 c'.rest = Cursor.skip c.position place 0 c.rest := by
  rw [h.position, h.rest]

/-- **What they come to is the same.** -/
theorem step (h : c.Same c') : c'.step.1 = c.step.1 ∧ c.step.2.Same c'.step.2 := by
  unfold Cursor.step
  split
  · next hl' =>
    split
    · next hl =>
      rw [h.lex, hl] at hl'
      cases hl'
      exact ⟨rfl, h.data, rfl⟩
    · next hl =>
      rw [h.lex, hl] at hl'
      cases hl'
  · next hl' =>
    split
    · next hl =>
      rw [h.lex, hl] at hl'
      cases hl'
    · next hl =>
      rw [h.lex, hl] at hl'
      cases hl'
      exact ⟨rfl, h.data, h.position⟩

theorem skipContainer (h : c.Same c') :
    c'.skipContainer.1 = c.skipContainer.1 ∧ c.skipContainer.2.Same c'.skipContainer.2 := by
  unfold Cursor.skipContainer
  split
  · next n hl' =>
    split
    · next hl =>
      rw [h.skip, hl] at hl'
      cases hl'
      exact ⟨congrArg (fun p => Except.ok (p + n)) h.position, h.data,
        congrArg (· + n) h.position⟩
    · next hl =>
      rw [h.skip, hl] at hl'
      cases hl'
  · next hl' =>
    split
    · next hl =>
      rw [h.skip, hl] at hl'
      cases hl'
    · next hl =>
      rw [h.skip, hl] at hl'
      cases hl'
      exact ⟨rfl, h⟩

theorem seek (h : c'.data = c.data) (position : Nat) :
    (c.seek position).Same (c'.seek position) :=
  ⟨h, congrArg (fun d : Bytes => min position d.length) h⟩

end Same

end Sift.Cursor
