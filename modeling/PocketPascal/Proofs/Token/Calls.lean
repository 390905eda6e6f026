import PocketPascal.Token.Feed

/-!
# Calls of a scanner

A scanner is asked for one token after another. `Yields` says which tokens a number of calls hand
out, up to the end of the input or up to an error. The feed of a scanner and the list of all its
tokens are described by it: a pull from the feed is a call, and the list is complete exactly when the
calls come to the end of the input without an error.
-/

namespace PocketPascal

namespace Lexeme

theorem wordKind_ne_finish (text : List Char) : wordKind text ≠ .finish := by
  unfold wordKind
  split <;> simp

theorem kind_readNumber_ne_finish (c : Char) (cs : List Char) :
    (readNumber c cs).1.kind ≠ .finish := by
  unfold readNumber
  split
  · split <;> simp
  · simp

theorem kind_ne_finish_of_read? {cs : List Char} {l : Lexeme} {rest : List Char}
    (h : read? cs = some (l, rest)) : l.kind ≠ .finish := by
  cases cs with
  | nil => cases h
  | cons c cs =>
    simp only [read?] at h
    split at h
    · cases h
      exact wordKind_ne_finish _
    split at h
    · have := kind_readNumber_ne_finish c cs
      rw [Option.some.inj h] at this
      exact this
    split at h
    · cases h
      simp
    split at h
    · cases h
      simp
    split at h
    · unfold readComment? at h
      split at h
      · cases h
      · cases h
        simp
    split at h
    · cases h
      simp
    · obtain ⟨sign, -, hs⟩ := Option.map_eq_some_iff.1 h
      cases hs
      simp

end Lexeme

namespace Scanner

/-! ## The end of the input -/

/-- A call that hands out the end of the input leaves the scanner where every further call does the
same. -/
theorem next_of_finish {s s' : Scanner} {t : Token} (h : s.next = (.ok t, s'))
    (hk : t.kind = .finish) : t = .finish s'.line ∧ s'.next = (.ok t, s') := by
  fun_induction next s with
  | case1 s l rest hr _ ih => exact ih h
  | case2 s l rest hr _ =>
    cases h
    exact absurd hk (Lexeme.kind_ne_finish_of_read? hr)
  | case3 s hr hs =>
    cases h
    refine ⟨rfl, ?_⟩
    rw [next]
    split
    · rename_i heq
      rw [hr] at heq
      cases heq
    · rw [hs]
  | case4 s hr c cs hs => cases h

/-! ## Tokens call by call -/

/-- The next calls hand out the tokens, none of which is the end of the input. -/
inductive Yields : Scanner → List Token → Scanner → Prop where
  /-- No call. -/
  | none (s : Scanner) : Yields s [] s
  /-- A call that hands out a token, and the calls after it. -/
  | more {s s₁ s' : Scanner} {t : Token} {ts : List Token} (h : s.next = (.ok t, s₁))
      (hk : t.kind ≠ .finish) (hs : Yields s₁ ts s') : Yields s (t :: ts) s'

/-- The calls hand out the tokens, and then the end of the input on the given line. -/
def Completes (s : Scanner) (ts : List Token) (line : Nat) : Prop :=
  ∃ s', s.Yields ts s' ∧ s'.next.1 = .ok (.finish line)

theorem Yields.of_append {s s' : Scanner} {us vs : List Token} (h : s.Yields (us ++ vs) s') :
    ∃ s₁, s.Yields us s₁ ∧ s₁.Yields vs s' := by
  induction us generalizing s with
  | nil => exact ⟨s, .none s, h⟩
  | cons u us ih =>
    cases h with
    | more hn hk hy =>
      obtain ⟨s₁, hus, hvs⟩ := ih hy
      exact ⟨s₁, .more hn hk hus, hvs⟩

theorem Yields.text {s s' : Scanner} {ts : List Token} (h : s.Yields ts s') : s'.text = s.text := by
  induction h with
  | none s => rfl
  | @more s s₁ s' t ts hn _ _ ih =>
    have htext := text_next s
    rw [hn] at htext
    exact ih.trans htext

theorem Yields.length_lt {s s' : Scanner} {ts : List Token} (h : s.Yields ts s') (hts : ts ≠ []) :
    s'.rest.length < s.rest.length := by
  induction h with
  | none s => exact absurd rfl hts
  | @more s s₁ s' t ts hn hk hy ih =>
    have hlt := length_lt_of_next_ok hn hk
    by_cases hnil : ts = []
    · subst hnil
      cases hy
      exact hlt
    · exact Nat.lt_trans (ih hnil) hlt

/-- Calls that come to the end of the input go through every place that other calls come to. -/
theorem Yields.split {s s₁ : Scanner} {us ts : List Token} {line : Nat} (hu : s.Yields us s₁)
    (ht : s.Completes ts line) : ∃ rest, ts = us ++ rest ∧ s₁.Completes rest line := by
  induction hu generalizing ts with
  | none s => exact ⟨ts, rfl, ht⟩
  | more h hk _ ih =>
    obtain ⟨s', hy, he⟩ := ht
    cases hy with
    | none =>
      rw [h] at he
      cases he
      exact absurd rfl hk
    | more h' _ hs' =>
      rw [h] at h'
      cases h'
      obtain ⟨rest, rfl, hr⟩ := ih ⟨s', hs', he⟩
      exact ⟨rest, rfl, hr⟩

/-- Where calls come to the end of the input, the next call hands out the first of their tokens, and
the calls after it come to the end of the input, too. -/
theorem Completes.next {s : Scanner} {ts : List Token} {line : Nat} (h : s.Completes ts line) :
    ∃ t s₁ more rest, s.next = (.ok t, s₁) ∧ ts ++ [.finish line] = t :: more ∧
      s₁.Completes rest line := by
  obtain ⟨s', hy, he⟩ := h
  cases hy with
  | none =>
    have hn : s.next = (.ok (.finish line), s.next.2) := Prod.ext he rfl
    have hn' := (next_of_finish hn rfl).2
    exact ⟨_, _, [], [], hn, rfl, _, .none _, by rw [hn']⟩
  | more h hk hs => exact ⟨_, _, _, _, h, rfl, s', hs, he⟩

/-- The list of all tokens is complete exactly when the calls come to the end of the input. -/
theorem tokenize_eq_ok_iff {s : Scanner} {all : List Token} :
    s.tokenize.1 = .ok all ↔ ∃ ts line, s.Completes ts line ∧ all = ts ++ [.finish line] := by
  fun_induction tokenize s generalizing all with
  | case1 s t s₁ h hk =>
    obtain ⟨ht, -⟩ := next_of_finish h hk
    constructor
    · intro e
      cases e
      exact ⟨[], s₁.line, ⟨s, .none s, by rw [h, ht]⟩, by rw [ht]; rfl⟩
    · rintro ⟨ts, line, ⟨s', hy, he⟩, rfl⟩
      cases hy with
      | none =>
        rw [h] at he
        cases he
        rfl
      | more h' hk' _ =>
        rw [h] at h'
        cases h'
        exact absurd hk hk'
  | case2 s t s₁ h hk ts s₂ hts ih =>
    rw [hts] at ih
    constructor
    · intro e
      cases e
      obtain ⟨us, line, ⟨s', hy, he⟩, rfl⟩ := ih.1 rfl
      exact ⟨t :: us, line, ⟨s', .more h hk hy, he⟩, rfl⟩
    · rintro ⟨us, line, hc, rfl⟩
      obtain ⟨rest, rfl, hr⟩ := Yields.split (.more h hk (.none s₁)) hc
      have := ih.2 ⟨rest, line, hr, rfl⟩
      cases this
      rfl
  | case3 s t s₁ h hk e s₂ hts ih =>
    rw [hts] at ih
    constructor
    · intro e
      cases e
    · rintro ⟨us, line, hc, rfl⟩
      obtain ⟨rest, rfl, hr⟩ := Yields.split (.more h hk (.none s₁)) hc
      have := ih.2 ⟨rest, line, hr, rfl⟩
      cases this
  | case4 s e s₁ h =>
    constructor
    · intro e
      cases e
    · rintro ⟨us, line, hc, rfl⟩
      obtain ⟨t, _, _, _, h', -⟩ := hc.next
      rw [h] at h'
      cases h'

theorem tokenize_eq_ok_finish_iff {s : Scanner} {ts : List Token} {line : Nat} :
    s.tokenize.1 = .ok (ts ++ [.finish line]) ↔ s.Completes ts line := by
  rw [tokenize_eq_ok_iff]
  constructor
  · rintro ⟨us, line', h, he⟩
    obtain ⟨rfl, hline⟩ := List.append_inj' he rfl
    cases hline
    exact h
  · intro h
    exact ⟨ts, line, h, rfl⟩

/-- There is an error instead exactly when some calls hand out tokens and the next one the error. -/
theorem tokenize_eq_error_iff {s : Scanner} {e : LexicalError} :
    s.tokenize.1 = .error e ↔ ∃ ts s', s.Yields ts s' ∧ s'.next.1 = .error e := by
  fun_induction tokenize s with
  | case1 s t s₁ h hk =>
    constructor
    · intro he
      cases he
    · rintro ⟨ts, s', hy, he⟩
      cases hy with
      | none =>
        rw [h] at he
        cases he
      | more h' hk' _ =>
        rw [h] at h'
        cases h'
        exact absurd hk hk'
  | case2 s t s₁ h hk ts s₂ hts ih =>
    rw [hts] at ih
    constructor
    · intro he
      cases he
    · rintro ⟨us, s', hy, he⟩
      cases hy with
      | none =>
        rw [h] at he
        cases he
      | more h' _ hy' =>
        rw [h] at h'
        cases h'
        have := ih.2 ⟨_, s', hy', he⟩
        cases this
  | case3 s t s₁ h hk e' s₂ hts ih =>
    rw [hts] at ih
    constructor
    · intro he
      obtain ⟨us, s', hy, he⟩ := ih.1 he
      exact ⟨t :: us, s', .more h hk hy, he⟩
    · rintro ⟨us, s', hy, he⟩
      cases hy with
      | none =>
        rw [h] at he
        cases he
      | more h' _ hy' =>
        rw [h] at h'
        cases h'
        exact ih.2 ⟨_, s', hy', he⟩
  | case4 s e' s₁ h =>
    constructor
    · intro he
      cases he
      exact ⟨[], s, .none s, by rw [h]⟩
    · rintro ⟨us, s', hy, he⟩
      cases hy with
      | none =>
        rw [h] at he
        cases he
        rfl
      | more h' _ _ =>
        rw [h] at h'
        cases h'

end Scanner

/-! ## The feed -/

namespace Feed

variable {s s' : Scanner} {t : Token} {e : LexicalError}

theorem ofScanner_of_finish (h : s.next = (.ok t, s')) (hk : t.kind = .finish) :
    ofScanner s = ⟨[], t.line⟩ := by
  rw [ofScanner]
  split
  · rename_i heq
    rw [h] at heq
    cases heq
    rw [dif_pos hk]
  · rename_i heq
    rw [h] at heq
    cases heq

theorem ofScanner_of_ok (h : s.next = (.ok t, s')) (hk : t.kind ≠ .finish) :
    ofScanner s = cons (.ok t) (ofScanner s') := by
  rw [ofScanner]
  split
  · rename_i heq
    rw [h] at heq
    cases heq
    rw [dif_neg hk]
  · rename_i heq
    rw [h] at heq
    cases heq

theorem ofScanner_of_error (h : s.next = (.error e, s')) :
    ofScanner s = cons (.error e) (ofScanner s') := by
  rw [ofScanner]
  split
  · rename_i heq
    rw [h] at heq
    cases heq
  · rename_i heq
    rw [h] at heq
    cases heq
    rfl

/-- A pull from the feed of a scanner is a call of the scanner. -/
theorem pull_ofScanner (s : Scanner) :
    (ofScanner s).pull = (s.next.1, ofScanner s.next.2) := by
  cases h : s.next with
  | mk answer s' =>
    cases answer with
    | error e =>
      rw [ofScanner_of_error h]
      rfl
    | ok t =>
      by_cases hk : t.kind = .finish
      · obtain ⟨ht, hn⟩ := Scanner.next_of_finish h hk
        rw [ofScanner_of_finish h hk, ofScanner_of_finish hn hk, ht]
        rfl
      · rw [ofScanner_of_ok h hk]
        rfl

/-- The feed of a scanner whose tokens are complete holds these tokens. -/
theorem ofScanner_of_completes {ts : List Token} {line : Nat} (h : s.Completes ts line) :
    ofScanner s = ⟨ts.map .ok, line⟩ := by
  obtain ⟨s', hy, he⟩ := h
  induction hy with
  | none s =>
    have hn : s.next = (.ok (.finish line), s.next.2) := Prod.ext he rfl
    rw [ofScanner_of_finish hn rfl]
    rfl
  | more hn hk _ ih =>
    rw [ofScanner_of_ok hn hk, ih he]
    rfl

end Feed

end PocketPascal
