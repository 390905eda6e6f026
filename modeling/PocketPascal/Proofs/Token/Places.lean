import PocketPascal.Proofs.Token.Segmentation

/-!
# Places of tokens

`handedOut` is what the calls of a scanner give, one after another, up to the end of the input or up
to the first error. Every token of it is cut out of the text of the scanner, and its line is one more
than the number of line breaks in front of it; so is the line of the error, which stands at the
character that fits nothing.
-/

namespace PocketPascal

/-- The piece stands in the text somewhere on the given line, the first line being one. -/
def Text.StandsOn (text : List Char) (line : Nat) (piece : List Char) : Prop :=
  ∃ before after, text = before ++ piece ++ after ∧ line = 1 + before.count '\n'

theorem Text.StandsOn.bounds {text piece : List Char} {line : Nat}
    (h : Text.StandsOn text line piece) : 1 ≤ line ∧ line ≤ 1 + text.count '\n' := by
  obtain ⟨before, after, rfl, rfl⟩ := h
  simp only [List.count_append]
  omega

namespace Scans

variable {line line' : Nat} {text rest : List Char} {ts : List Token}

theorem exact (h : Scans line text ts line' rest) :
    ∃ passed, text = passed ++ rest ∧ line' = line + passed.count '\n' := by
  induction h with
  | here => exact ⟨[], rfl, rfl⟩
  | @filler line line' piece text rest ts hp _ ih =>
    obtain ⟨passed, rfl, rfl⟩ := ih
    refine ⟨piece ++ passed, by rw [List.append_assoc], ?_⟩
    rw [List.count_append, Nat.add_assoc]
  | @token line line' kind piece text rest ts hp _ ih =>
    obtain ⟨passed, rfl, rfl⟩ := ih
    have hflat : piece.count '\n' = 0 := hp.fits.count_newline hp.solid
    refine ⟨piece ++ passed, by rw [List.append_assoc], ?_⟩
    rw [List.count_append, hflat, Nat.zero_add]

/-- A token that was passed over has its text and its line from where it stands. -/
theorem token_place (h : Scans line text ts line' rest) :
    ∀ t ∈ ts, ∃ before after, text = before ++ t.text.toList ++ after ∧
      t.line = line + before.count '\n' := by
  induction h with
  | here => simp
  | @filler line line' piece text rest ts hp _ ih =>
    intro t ht
    obtain ⟨before, after, rfl, hline⟩ := ih t ht
    refine ⟨piece ++ before, after, by simp, ?_⟩
    rw [hline, List.count_append, Nat.add_assoc]
  | @token line line' kind piece text rest ts hp _ ih =>
    have hflat : piece.count '\n' = 0 := hp.fits.count_newline hp.solid
    intro t ht
    rcases List.mem_cons.1 ht with rfl | ht
    · exact ⟨[], text, by simp [Token.text], rfl⟩
    · obtain ⟨before, after, rfl, hline⟩ := ih t ht
      refine ⟨piece ++ before, after, by simp, ?_⟩
      rw [hline, List.count_append, hflat, Nat.zero_add]

end Scans

namespace Scanner

/-- What the calls hand out: the tokens up to the end of the input, which is the last one, and no
error; or the tokens before the first error, and the error. -/
def handedOut (s : Scanner) : List Token × Option LexicalError :=
  match _h : s.next with
  | (.ok t, after) =>
      if _hk : t.kind = .finish then ([t], none)
      else (t :: after.handedOut.1, after.handedOut.2)
  | (.error e, _) => ([], some e)
termination_by s.rest.length
decreasing_by all_goals exact length_lt_of_next_ok _h _hk

section

variable {s s' : Scanner} {t : Token} {e : LexicalError}

theorem Yields.snoc {s₁ : Scanner} {ts : List Token} (h : s.Yields ts s₁)
    (hn : s₁.next = (.ok t, s')) (hk : t.kind ≠ .finish) : s.Yields (ts ++ [t]) s' := by
  induction h with
  | none s => exact .more hn hk (.none s')
  | more hn' hk' _ ih => exact .more hn' hk' (ih hn)

theorem handedOut_of_finish (h : s.next = (.ok t, s')) (hk : t.kind = .finish) :
    s.handedOut = ([t], none) := by
  rw [handedOut]
  split
  · rename_i heq
    rw [h] at heq
    cases heq
    rw [dif_pos hk]
  · rename_i heq
    rw [h] at heq
    cases heq

theorem handedOut_of_ok (h : s.next = (.ok t, s')) (hk : t.kind ≠ .finish) :
    s.handedOut = (t :: s'.handedOut.1, s'.handedOut.2) := by
  rw [handedOut]
  split
  · rename_i heq
    rw [h] at heq
    cases heq
    rw [dif_neg hk]
  · rename_i heq
    rw [h] at heq
    cases heq

theorem handedOut_of_error (h : s.next = (.error e, s')) : s.handedOut = ([], some e) := by
  rw [handedOut]
  split
  · rename_i heq
    rw [h] at heq
    cases heq
  · rename_i heq
    rw [h] at heq
    cases heq
    rfl

theorem Yields.handedOut {ts : List Token} (h : s.Yields ts s') :
    s.handedOut = (ts ++ s'.handedOut.1, s'.handedOut.2) := by
  induction h with
  | none s => rfl
  | more hn hk _ ih => rw [handedOut_of_ok hn hk, ih, List.cons_append]

theorem Yields.handedOut_next {ts : List Token} {s₁ : Scanner} (h : s.Yields ts s₁)
    (hn : s₁.next = (.ok t, s')) : ∃ rest, s.handedOut.1 = ts ++ t :: rest := by
  rw [h.handedOut]
  by_cases hk : t.kind = .finish
  · exact ⟨[], by rw [handedOut_of_finish hn hk]⟩
  · exact ⟨_, by rw [handedOut_of_ok hn hk]⟩

theorem Completes.handedOut {ts : List Token} {line : Nat} (h : s.Completes ts line) :
    s.handedOut = (ts ++ [.finish line], none) := by
  obtain ⟨s', hy, he⟩ := h
  have hn : s'.next = (.ok (.finish line), s'.next.2) := Prod.ext he rfl
  rw [hy.handedOut, handedOut_of_finish hn rfl]

theorem Yields.handedOut_error {ts : List Token} (h : s.Yields ts s')
    (he : s'.next.1 = .error e) : s.handedOut = (ts, some e) := by
  have hn : s'.next = (.error e, s'.next.2) := Prod.ext he rfl
  rw [h.handedOut, handedOut_of_error hn, List.append_nil]

/-- The calls come to the end of the input or to an error. -/
theorem completes_or_error (s : Scanner) :
    (∃ ts line, s.Completes ts line) ∨ ∃ ts s' e, s.Yields ts s' ∧ s'.next.1 = .error e := by
  cases h : s.tokenize.1 with
  | ok all =>
    obtain ⟨ts, line, hc, -⟩ := tokenize_eq_ok_iff.1 h
    exact .inl ⟨ts, line, hc⟩
  | error e =>
    obtain ⟨ts, s', hy, he⟩ := tokenize_eq_error_iff.1 h
    exact .inr ⟨ts, s', e, hy, he⟩

/-- The error behind the tokens is the one in place of the list of all tokens. -/
theorem tokenize_of_handedOut (h : s.handedOut.2 = some e) : s.tokenize.1 = .error e := by
  rcases s.completes_or_error with ⟨ts, line, hc⟩ | ⟨ts, s', e', hy, he⟩
  · rw [hc.handedOut] at h
    cases h
  · rw [hy.handedOut_error he] at h
    cases h
    exact tokenize_eq_error_iff.2 ⟨ts, s', hy, he⟩

end

/-! ## Source texts -/

variable {source : String}

theorem Yields.standsOn {s : Scanner} {ts : List Token} (h : (ofSource source).Yields ts s) :
    ∀ t ∈ ts, Text.StandsOn (Text.trim source.toList) t.line t.text.toList :=
  h.scans.token_place

theorem Completes.standsOn_finish {ts : List Token} {line : Nat}
    (h : (ofSource source).Completes ts line) :
    Text.StandsOn (Text.trim source.toList) line [] := by
  obtain ⟨passed, hpassed, hline⟩ := h.scans.exact
  refine ⟨passed, [], ?_, hline⟩
  rw [List.append_nil]
  exact hpassed

theorem Yields.standsOn_error {s : Scanner} {ts : List Token} {e : LexicalError}
    (h : (ofSource source).Yields ts s) (he : s.next.1 = .error e) :
    Text.StandsOn (Text.trim source.toList) e.line [e.character] := by
  have hcall := call_next s
  generalize s.next = answer at hcall he
  cases hcall with
  | token _ _ => cases he
  | finish _ => cases he
  | @error _ cs _ hs _ =>
    cases he
    obtain ⟨passed, hpassed, hline⟩ := (h.scans.append hs).exact
    refine ⟨passed, cs, ?_, hline⟩
    rw [List.append_assoc]
    exact hpassed

/-- Every token that is handed out for a source text stands on its line of the trimmed text, the end
of the input behind everything, and so does the character of an error. -/
theorem handedOut_standsOn (source : String) :
    (∀ t ∈ (ofSource source).handedOut.1,
      Text.StandsOn (Text.trim source.toList) t.line t.text.toList) ∧
    ∀ e, (ofSource source).handedOut.2 = some e →
      Text.StandsOn (Text.trim source.toList) e.line [e.character] := by
  rcases (ofSource source).completes_or_error with ⟨ts, line, hc⟩ | ⟨ts, s, e, hy, he⟩
  · rw [hc.handedOut]
    refine ⟨fun t ht => ?_, fun e he => nomatch he⟩
    rcases List.mem_append.1 ht with ht | ht
    · exact hc.choose_spec.1.standsOn t ht
    · rw [List.mem_singleton.1 ht]
      exact hc.standsOn_finish
  · rw [hy.handedOut_error he]
    refine ⟨hy.standsOn, fun e' he' => ?_⟩
    cases he'
    exact hy.standsOn_error he

end Scanner

end PocketPascal
