import PocketPascal.Proofs.Syntax.Acceptance

/-!
# The token at which the grammar is left

An error of the grammar names a token. The main statement is that it is the first token that does not
fit: the tokens before it begin some program, and together with it they begin none. A token of the
kind that was expected in its place would have fitted.
-/

namespace PocketPascal

/-- The token that an error of the grammar is about. -/
def SyntaxError.misfit? : SyntaxError → Option Token
  | .unexpected _ found _ => some found.token
  | .trailing found => some found.token
  | .noType found => some found.token
  | .lexical _ => none
  | .literalTooLarge _ _ => none

namespace Grammar

variable {ts us vs : List Token} {t : Token}

/-- Tokens that begin a program are those that open one in the grammar with values. -/
theorem isViable_iff_opens : IsViable ts ↔ Opens (IsProgram Numbered) ts := by
  constructor
  · rintro ⟨more, h⟩
    obtain ⟨p, hp⟩ := isSentence_iff.1 h
    exact ⟨more, p, hp⟩
  · rintro ⟨more, p, hp⟩
    exact ⟨more, isSentence_iff.2 ⟨p, hp⟩⟩

/-- What begins the beginning of a program begins a program. -/
theorem IsViable.of_append (h : IsViable (us ++ vs)) : IsViable us := by
  obtain ⟨more, h⟩ := h
  exact ⟨vs ++ more, by rwa [← List.append_assoc]⟩

/-- The tokens begin no program with its end. -/
def IsBlocked (ts : List Token) : Prop :=
  ∀ sentence line, IsSentence sentence → ¬ ts <+: sentence ++ [.finish line]

/-- Tokens that no program can begin with are not the beginning of one with its end. -/
theorem isBlocked_of_forces (h : Forces (IsProgram Numbered) [] ts fun _ _ => False) :
    IsBlocked ts := by
  rintro sentence line hs ⟨more, he⟩
  obtain ⟨p, hp⟩ := isSentence_iff.1 hs
  exact h more sentence [.finish line] p hp clear_none he.symm

/-- No token but the end of the input goes on after a whole program. -/
theorem isBlocked_of_determined {p : Program}
    (h : Forces (IsProgram Numbered) [] (us ++ [t]) fun v q => v = us ∧ q = p)
    (ht : t.kind ≠ .finish) : IsBlocked (us ++ [t]) := by
  rintro sentence line hs ⟨more, he⟩
  obtain ⟨q, hq⟩ := isSentence_iff.1 hs
  obtain ⟨rfl, -⟩ := h more sentence [.finish line] q hq clear_none he.symm
  rw [List.append_assoc, List.append_cancel_left_eq] at he
  obtain ⟨rfl, -⟩ := List.cons.inj he
  exact ht rfl

/-- What an error says about the tokens `us` before it and the token `t` at which it stands. -/
structure IsMisfit (cause : SyntaxError) (us : List Token) (t : Token) : Prop where
  /-- The tokens before the error begin a program. -/
  viable : IsViable us
  /-- Together with the token they begin none. -/
  blocked : IsBlocked (us ++ [t])
  /-- The line that the error reports is the line of the token. -/
  line : cause.line = t.line
  /-- A token of the expected kind would have gone on with a program. -/
  expected : ∀ kind found recent, cause = .unexpected kind found recent →
    ∀ t' : Token, t'.kind = kind → IsViable (us ++ [t'])

/-- A token stands at a misfit if no program goes on with it, but with any token of another kind. -/
theorem isMisfit_of_unexpected {c : Cursor} {kind : Kind}
    (opens : ∀ t : Token, t.kind = kind → Opens (IsProgram Numbered) (us ++ [t]))
    (forces : Forces (IsProgram Numbered) [] (us ++ [c.current]) fun _ _ => False) :
    IsMisfit (c.unexpected kind) us c.current := by
  have viable : ∀ t : Token, t.kind = kind → IsViable (us ++ [t]) :=
    fun t hk => isViable_iff_opens.2 (opens t hk)
  refine ⟨(viable ⟨kind, none, 0⟩ rfl).of_append, isBlocked_of_forces forces, rfl, ?_⟩
  intro kind' found recent he
  cases he
  exact viable

theorem isMisfit_of_noType
    (opens : ∀ t : Token, t.kind.isType → Opens (IsProgram Numbered) (us ++ [t]))
    (forces : Forces (IsProgram Numbered) [] (us ++ [t]) fun _ _ => False) :
    IsMisfit (.noType t.culprit) us t := by
  have viable := isViable_iff_opens.2 (opens ⟨.keyword .integer, none, 0⟩ rfl)
  refine ⟨viable.of_append, isBlocked_of_forces forces, rfl, ?_⟩
  intro kind found recent he
  cases he

theorem isMisfit_of_trailing {p : Program} (is : IsProgram Numbered us p)
    (forces : Forces (IsProgram Numbered) [] (us ++ [t]) fun v q => v = us ∧ q = p)
    (ht : t.kind ≠ .finish) : IsMisfit (.trailing t.culprit) us t := by
  have viable : IsViable us := isViable_iff_opens.2 ⟨[], p, by simpa using is⟩
  refine ⟨viable, isBlocked_of_determined forces ht, rfl, ?_⟩
  intro kind found recent he
  cases he

/-- An error of the reader of programs at a token stands at a misfit. -/
theorem isMisfit_of_read {c after : Cursor} {cause : SyntaxError}
    (h : Program.read c = .failed cause after) (ht : cause.misfit? = some t) :
    ∃ us c', c.Eats us c' ∧ c'.current = t ∧ IsMisfit cause us t := by
  have meets := meets_program c
  rw [h] at meets
  cases meets with
  | unexpected eats held opens forces =>
    obtain rfl := Option.some.inj ht
    exact ⟨_, after, eats, rfl, isMisfit_of_unexpected opens forces⟩
  | noType eats held opens forces =>
    obtain rfl := Option.some.inj ht
    exact ⟨_, after, eats, rfl, isMisfit_of_noType opens forces⟩
  | lexical => cases ht
  | literal => cases ht

/-- An error of the reader of whole texts at a token stands at a misfit. -/
theorem isMisfit_of_readAll {c : Cursor} {cause : SyntaxError}
    (h : Program.readAll c = .error cause) (ht : cause.misfit? = some t) :
    ∃ us c', c.Eats us c' ∧ c'.current = t ∧ IsMisfit cause us t := by
  rw [Program.readAll] at h
  split at h
  · rename_i p c' lt hr
    have meets := meets_program c
    rw [hr] at meets
    split at h
    · cases h
    · rename_i hfinish
      cases h
      obtain rfl := Option.some.inj ht
      cases meets with
      | done eats held is forces =>
        have hk : c'.current.kind ≠ .finish := by simpa [Cursor.isAt] using hfinish
        exact ⟨_, c', eats, rfl, isMisfit_of_trailing is forces hk⟩
  · rename_i cause' after hr
    cases h
    exact isMisfit_of_read hr ht

/-- An error of the grammar stands at the first token of the source text that does not fit: the
scanner hands out the tokens `us` and then the token of the error, and it is a misfit behind them. -/
theorem first_misfit_of_ofSource {source : String} {cause : SyntaxError} {t : Token}
    (h : Program.ofSource source = .error cause) (ht : cause.misfit? = some t) :
    ∃ us s s', (Scanner.ofSource source).Yields us s ∧ s.next = (.ok t, s') ∧
      IsMisfit cause us t := by
  cases hc : Cursor.ofSource source with
  | error cause' =>
    obtain ⟨e, rfl, -⟩ := Cursor.ofSource_eq_error_iff.1 hc
    rw [Program.ofSource, hc] at h
    cases h
    cases ht
  | ok c =>
    rw [ofSource_eq_readAll hc] at h
    obtain ⟨us, c', heats, rfl, misfit⟩ := isMisfit_of_readAll h ht
    obtain ⟨s, hy, s', hn, -⟩ := heats.standsAt (Cursor.standsAt_ofSource hc)
    exact ⟨us, s, s', hy, hn, misfit⟩

/-- In a program whose last assignment has no value, the closing word stands where a name could have
stood. -/
theorem first_misfit_of_missing_value :
    Program.ofSource "PROGRAM p; BEGIN a := END." =
        .error (.unexpected .name ⟨⟨.keyword .finish, some "END", 1⟩, 1⟩
          [⟨.name, some "p", 1⟩, ⟨.mark .semicolon, some ";", 1⟩, ⟨.keyword .begin, some "BEGIN", 1⟩,
            ⟨.name, some "a", 1⟩, ⟨.mark .assign, some ":=", 1⟩]) ∧
      ∃ us s s', (Scanner.ofSource "PROGRAM p; BEGIN a := END.").Yields us s ∧
        s.next = (.ok ⟨.keyword .finish, some "END", 1⟩, s') ∧
        IsMisfit (.unexpected .name ⟨⟨.keyword .finish, some "END", 1⟩, 1⟩
          [⟨.name, some "p", 1⟩, ⟨.mark .semicolon, some ";", 1⟩, ⟨.keyword .begin, some "BEGIN", 1⟩,
            ⟨.name, some "a", 1⟩, ⟨.mark .assign, some ":=", 1⟩]) us
          ⟨.keyword .finish, some "END", 1⟩ := by
  have hr : (match Program.ofSource "PROGRAM p; BEGIN a := END." with
      | .error cause => decide (cause = .unexpected .name ⟨⟨.keyword .finish, some "END", 1⟩, 1⟩
          [⟨.name, some "p", 1⟩, ⟨.mark .semicolon, some ";", 1⟩, ⟨.keyword .begin, some "BEGIN", 1⟩,
            ⟨.name, some "a", 1⟩, ⟨.mark .assign, some ":=", 1⟩])
      | .ok _ => false) = true := by decide +kernel
  split at hr
  · rename_i cause h
    rw [of_decide_eq_true hr] at h
    exact ⟨h, first_misfit_of_ofSource h rfl⟩
  · cases hr

end Grammar

end PocketPascal
