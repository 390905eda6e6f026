import PocketPascal.Proofs.Syntax.Misfit
import PocketPascal.Proofs.Token.Places

/-!
# What has been read when reading ends

Reading a source text ends with a program, at a token that does not fit, at a character that starts
no token, or at a number that cannot be held. `Verdict` says for each of them what the scanner has
handed out and what of it has been looked at: the token after a number is scanned before the number
is, so an error of the scanner leaves the last token unread.
-/

namespace PocketPascal.Grammar

variable {ts us vs : List Token} {t : Token} {line : Nat}

/-! ## Prefixes -/

theorem IsViable.not_isBlocked (h : IsViable us) : ¬ IsBlocked us := by
  obtain ⟨more, hs⟩ := h
  intro hb
  refine hb _ 0 hs ?_
  rw [List.append_assoc]
  exact List.prefix_append us _

theorem IsViable.not_isBlocked_take (h : IsViable us) (k : Nat) : ¬ IsBlocked (us.take k) := by
  have hsplit : us.take k ++ us.drop k = us := List.take_append_drop k us
  rw [← hsplit] at h
  exact h.of_append.not_isBlocked

theorem isViable_nil : IsViable [] := by
  have hblock : Opens (IsBlock fun _ _ => True) [] := opens_block
  obtain ⟨bs, block, hb⟩ := hblock
  have is : IsProgram (fun _ _ => True) (⟨.keyword .program, none, 0⟩ :: ⟨.name, none, 0⟩ ::
      ⟨.mark .semicolon, none, 0⟩ :: bs ++ [⟨.mark .dot, none, 0⟩]) ⟨"", block⟩ :=
    .parts rfl rfl rfl hb rfl
  exact ⟨_, _, is⟩

theorem Held.inRange (h : Held ts) (ht : t ∈ ts) : t.InRange := held_iff.1 h t ht

/-! ## What has been read -/

/-- What has been read of a source text when a program is accepted or an error is found. -/
inductive Verdict (source : String) : Except SyntaxError Program → Prop where
  /-- All tokens form a program and all numbers can be held. -/
  | accepted {ts : List Token} {line : Nat} {p : Program}
      (completes : (Scanner.ofSource source).Completes ts line) (held : Held ts)
      (is : IsProgram Numbered ts p) : Verdict source (.ok p)
  /-- A token does not fit behind the tokens `us`. -/
  | misfit {us : List Token} {t : Token} {s s' : Scanner} {cause : SyntaxError}
      (yields : (Scanner.ofSource source).Yields us s) (next : s.next = (.ok t, s'))
      (held : Held us) (is : IsMisfit cause us t) (found : cause.misfit? = some t) :
      Verdict source (.error cause)
  /-- The tokens `us` begin a program, and then there is an error of the scanner. The last of them
  has not been looked at. -/
  | lexical {us : List Token} {s : Scanner} {e : LexicalError}
      (yields : (Scanner.ofSource source).Yields us s) (next : s.next.1 = .error e)
      (held : Held us.dropLast) (viable : IsViable us) : Verdict source (.error (.lexical e))
  /-- The tokens up to a number that cannot be held begin a program, and another token follows. -/
  | literal {us : List Token} {t t' : Token} {s : Scanner}
      (yields : (Scanner.ofSource source).Yields (us ++ [t]) s) (next : s.next.1 = .ok t')
      (held : Held us) (excess : ¬ t.InRange) (viable : IsViable (us ++ [t])) :
      Verdict source (.error (.literalTooLarge t.text t.line))

/-- An error of the reader of programs, in a text whose first token can be scanned. -/
theorem verdict_of_failed {source : String} {c after : Cursor} {cause : SyntaxError}
    (hs : c.StandsAt (Scanner.ofSource source)) (h : Program.read c = .failed cause after) :
    Verdict source (.error cause) := by
  have meets := meets_program c
  rw [h] at meets
  cases meets with
  | unexpected eats held opens forces =>
    obtain ⟨s, hy, s', hn, -⟩ := eats.standsAt hs
    exact .misfit hy hn held (isMisfit_of_unexpected opens forces) rfl
  | noType eats held opens forces =>
    obtain ⟨s, hy, s', hn, -⟩ := eats.standsAt hs
    exact .misfit hy hn held (isMisfit_of_noType opens forces) rfl
  | @lexical us c' e ahead eats held pull opens forces =>
    obtain ⟨s, hy, hs'⟩ := eats.standsAt hs
    obtain ⟨s', hn, he⟩ := hs'.next_error pull
    -- behind the end of the input there is no error
    have hk : c'.current.kind ≠ .finish := by
      intro hk
      rw [(Scanner.next_of_finish hn hk).2] at he
      cases he
    exact .lexical (hy.snoc hn hk) he (by rwa [List.dropLast_concat]) (isViable_iff_opens.2 opens)
  | @literal us t _ eats held number none opens _ =>
    obtain ⟨s, hy, s', hn, -⟩ := eats.standsAt hs
    have excess : ¬ t.InRange := by
      rw [← Token.isSome_value?_iff number, none]
      simp
    exact .literal hy (by rw [hn]) held excess (isViable_iff_opens.2 opens)

/-- Whatever a source text is read as, there is a verdict for it. -/
theorem verdict_ofSource (source : String) : Verdict source (Program.ofSource source) := by
  cases hc : Cursor.ofSource source with
  | error cause =>
    obtain ⟨e, rfl, he⟩ := Cursor.ofSource_eq_error_iff.1 hc
    rw [Program.ofSource, hc]
    exact .lexical (.none _) he held_nil isViable_nil
  | ok c =>
    have hs := Cursor.standsAt_ofSource hc
    rw [ofSource_eq_readAll hc]
    cases hr : Program.readAll c with
    | ok p =>
      obtain ⟨ts, line, completes, held, is⟩ := isProgram_of_readAll hs hr
      exact .accepted completes held is
    | error cause =>
      rw [Program.readAll] at hr
      split at hr
      · rename_i p c' lt hread
        have meets := meets_program c
        rw [hread] at meets
        split at hr
        · cases hr
        · rename_i hfinish
          cases hr
          cases meets with
          | done eats held is forces =>
            have hk : c'.current.kind ≠ .finish := by simpa [Cursor.isAt] using hfinish
            obtain ⟨s, hy, s', hn, -⟩ := eats.standsAt hs
            exact .misfit hy hn held (isMisfit_of_trailing is forces hk) rfl
      · rename_i cause' after hread
        cases hr
        exact verdict_of_failed hs hread

/-- An error at a token that does not fit reports the line of this token. -/
theorem Verdict.line_of_misfit? {source : String} {cause : SyntaxError} {t : Token}
    (h : Verdict source (.error cause)) (ht : cause.misfit? = some t) : cause.line = t.line := by
  cases h with
  | misfit _ _ _ is found =>
    obtain rfl := Option.some.inj (found.symm.trans ht)
    exact is.line
  | lexical => cases ht
  | literal => cases ht

end PocketPascal.Grammar
