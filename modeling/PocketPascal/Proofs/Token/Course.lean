import PocketPascal.Proofs.Token.Calls
import PocketPascal.Token.Cursor

/-!
# The course of a cursor

`Eats` says that one cursor comes from another by eating some tokens. A cursor *stands at* a scanner
if its current token is what the next call of the scanner hands out, and its feed is what comes
after. The main statement is that eating keeps to the scanner: the tokens that were eaten are the
tokens of as many calls, and the cursor stands at the scanner after them.
-/

namespace PocketPascal.Cursor

/-- The second cursor comes from the first one by eating the tokens. -/
inductive Eats : Cursor → List Token → Cursor → Prop where
  /-- Nothing is eaten. -/
  | none (c : Cursor) : Eats c [] c
  /-- The current token is eaten, and others after it. -/
  | more {c c' : Cursor} {next : Token} {ahead : Feed} {ts : List Token}
      (hk : c.current.kind ≠ .finish) (hp : c.ahead.pull = (.ok next, ahead))
      (h : Eats (c.advance next ahead) ts c') : Eats c (c.current :: ts) c'

variable {c c₁ c' : Cursor} {us vs : List Token}

theorem Eats.trans (h : c.Eats us c₁) (h' : c₁.Eats vs c') : c.Eats (us ++ vs) c' := by
  induction h with
  | none c => exact h'
  | more hk hp _ ih => exact .more hk hp (ih h')

/-- The first of the tokens that were eaten, or the current one if there are none, is the one at
which the cursor was. -/
theorem Eats.starts (h : c.Eats us c') : ∃ more, us ++ [c'.current] = c.current :: more := by
  cases h with
  | none => exact ⟨[], rfl⟩
  | more hk hp h => exact ⟨_, rfl⟩

/-- The last of the tokens that were eaten was the current one before. -/
theorem Eats.of_concat {t : Token} (h : c.Eats (us ++ [t]) c') :
    ∃ c₁, c.Eats us c₁ ∧ c₁.current = t := by
  induction us generalizing c with
  | nil =>
    cases h with
    | more hk hp h => exact ⟨c, .none c, rfl⟩
  | cons u us ih =>
    cases h with
    | more hk hp h =>
      obtain ⟨c₁, hus, ht⟩ := ih h
      exact ⟨c₁, .more hk hp hus, ht⟩

theorem Eats.remaining_le (h : c.Eats us c') : c'.remaining + us.length ≤ c.remaining := by
  induction h with
  | none c => exact Nat.le_refl _
  | more hk hp _ ih =>
    have := remaining_advance_lt hp hk
    rw [List.length_cons]
    omega

/-- Only one sequence of tokens can have been eaten from one cursor to another. -/
theorem Eats.unique (h : c.Eats us c') (h' : c.Eats vs c') : us = vs := by
  induction h generalizing vs with
  | none c =>
    have hle := h'.remaining_le
    exact (List.length_eq_zero_iff.1 (by omega)).symm
  | more hk hp h ih =>
    cases h' with
    | none =>
      have hle := h.remaining_le
      have hlt := remaining_advance_lt hp hk
      omega
    | more _ hp' h' =>
      rw [hp] at hp'
      cases hp'
      rw [ih h']

/-! ## Cursors over a scanner -/

/-- The current token is what the next call of the scanner hands out, and the feed comes after
it. -/
def StandsAt (c : Cursor) (s : Scanner) : Prop :=
  ∃ s', s.next = (.ok c.current, s') ∧ c.ahead = Feed.ofScanner s'

theorem standsAt_ofSource {source : String} (h : ofSource source = .ok c) :
    c.StandsAt (Scanner.ofSource source) := by
  unfold ofSource ofFeed Feed.ofSource at h
  rw [Feed.pull_ofScanner] at h
  split at h
  · rename_i t ahead heq
    cases h
    exact ⟨_, Prod.ext (Prod.ext_iff.1 heq).1 rfl, (Prod.ext_iff.1 heq).2.symm⟩
  · cases h

/-- There is no first cursor exactly when the first token cannot be scanned. -/
theorem ofSource_eq_error_iff {source : String} {cause : SyntaxError} :
    ofSource source = .error cause ↔
      ∃ e, cause = .lexical e ∧ (Scanner.ofSource source).next.1 = .error e := by
  unfold ofSource ofFeed Feed.ofSource
  rw [Feed.pull_ofScanner]
  cases (Scanner.ofSource source).next.1 with
  | ok t => simp
  | error e => simp [eq_comm]

theorem Eats.standsAt {s : Scanner} (h : c.Eats us c') (hs : c.StandsAt s) :
    ∃ s', s.Yields us s' ∧ c'.StandsAt s' := by
  induction h generalizing s with
  | none c => exact ⟨s, .none s, hs⟩
  | more hk hp _ ih =>
    obtain ⟨s₁, hn, ha⟩ := hs
    rw [ha, Feed.pull_ofScanner] at hp
    have hn₁ : s₁.next = (.ok _, s₁.next.2) := Prod.ext (Prod.ext_iff.1 hp).1 rfl
    obtain ⟨s', hy, hs'⟩ := ih ⟨_, hn₁, (Prod.ext_iff.1 hp).2.symm⟩
    exact ⟨s', .more hn hk hy, hs'⟩

/-- If the next token cannot be pulled, then the call after the one for the current token fails. -/
theorem StandsAt.next_error {s : Scanner} {e : LexicalError} {ahead : Feed} (hs : c.StandsAt s)
    (hp : c.ahead.pull = (.error e, ahead)) :
    ∃ s', s.next = (.ok c.current, s') ∧ s'.next.1 = .error e := by
  obtain ⟨s', hn, ha⟩ := hs
  rw [ha, Feed.pull_ofScanner] at hp
  exact ⟨s', hn, (Prod.ext_iff.1 hp).1⟩

end PocketPascal.Cursor
