import PocketPascal.Proofs.Token.Segmentation

/-!
# Call after call

A scanner may be asked again and again, past errors and past the end of the input. `afterCalls` is
where it stands after some calls, and `answer` is what the next call gives. The main statement is on
lines: the line of an answer is one more than the number of line feeds in front of the token or the
character that it is about, until a brace is reported that is never closed; that takes the rest of
the text with it, and only the end of the input is left, on the line of the brace.
-/

namespace PocketPascal.Scanner

/-- The scanner after a number of calls, whatever they have given. -/
def afterCalls (s : Scanner) : Nat → Scanner
  | 0 => s
  | n + 1 => (s.afterCalls n).next.2

/-- What the next call gives after `n` others. -/
def answer (s : Scanner) (n : Nat) : Except LexicalError Token := (s.afterCalls n).next.1

/-- Whatever comes after the first call comes from the scanner behind it. -/
theorem afterCalls_next (s : Scanner) (n : Nat) : s.next.2.afterCalls n = s.afterCalls (n + 1) := by
  induction n with
  | zero => rfl
  | succ n ih =>
    show (s.next.2.afterCalls n).next.2 = (s.afterCalls (n + 1)).next.2
    rw [ih]

theorem answer_next (s : Scanner) (n : Nat) : s.next.2.answer n = s.answer (n + 1) := by
  rw [answer, afterCalls_next, answer]

/-- The line that an answer names. -/
def lineOf : Except LexicalError Token → Nat
  | .ok t => t.line
  | .error e => e.line

/-- The answer reports a brace that is never closed: no other error is about a brace. -/
def IsUnclosed : Except LexicalError Token → Prop
  | .ok _ => False
  | .error e => e.character = '{'

/-- The piece stands in the text right before the position of the scanner, and the line is one more
than the number of line feeds in front of the piece. -/
def HasCut (s : Scanner) (text : List Char) (line : Nat) (piece : List Char) : Prop :=
  ∃ before, s.passed.reverse = before ++ piece ∧ text = before ++ piece ++ s.rest ∧
    line = 1 + before.count '\n'

/-- An answer, and the scanner behind it, with the line counted from the beginning of the text. -/
inductive Counts (text : List Char) : Except LexicalError Token × Scanner → Prop where
  /-- A token on the line on which it begins. -/
  | token {t : Token} {s : Scanner} (hk : t.kind ≠ .finish)
      (h : s.HasCut text t.line t.text.toList) : Counts text (.ok t, s)
  /-- The end of the input on the last line of the text. -/
  | finish {line : Nat} {s : Scanner} (hr : s.rest = []) (h : line = 1 + text.count '\n') :
      Counts text (.ok (.finish line), s)
  /-- A character that starts nothing, on its line. -/
  | invalid {e : LexicalError} {s : Scanner} (hc : e.character ≠ '{')
      (h : s.HasCut text e.line [e.character]) : Counts text (.error e, s)
  /-- A brace that nothing closes, on its line, and all the text behind it. -/
  | unclosed {e : LexicalError} {s : Scanner} {cs : List Char} (hc : e.character = '{')
      (hn : '}' ∉ cs) (hr : s.rest = []) (h : s.HasCut text e.line ('{' :: cs)) :
      Counts text (.error e, s)

/-! ## One call -/

/-- All line feeds have been counted so far. -/
def IsExact (s : Scanner) : Prop := s.line = 1 + s.passed.count '\n'

theorem IsExact.past {s : Scanner} {l : Lexeme} {rest : List Char} (h : s.IsExact)
    (hr : Lexeme.read? s.rest = some (l, rest)) : (s.past l rest).IsExact := by
  rw [past_eq_across hr]
  unfold IsExact at h ⊢
  simp only [across, List.count_append, List.count_reverse]
  omega

/-- A character that starts nothing is no line feed. -/
theorem ne_newline_of_stuck {c : Char} {cs : List Char} (h : Lexeme.read? (c :: cs) = none) :
    c ≠ '\n' := by
  rintro rfl
  cases h

/-- A brace that starts nothing is not closed. -/
theorem not_closed_of_stuck {cs : List Char} (h : Lexeme.read? ('{' :: cs) = none) : '}' ∉ cs := by
  intro hmem
  obtain ⟨inner, text, rfl, hinner⟩ := List.eq_append_cons_of_mem hmem
  rw [read?_comment text hinner] at h
  cases h

theorem line_pastInvalid (s : Scanner) (c : Char) (cs : List Char) :
    (s.pastInvalid c cs).line = s.line := by
  unfold pastInvalid
  split <;> rfl

/-- The line of an answer is the one that the scanner is on behind it. -/
theorem lineOf_next (s : Scanner) : lineOf s.next.1 = s.next.2.line := by
  fun_induction next s with
  | case1 s l rest hr hl ih => exact ih
  | case2 s l rest hr hl =>
    have hlongest := isLongest_of_read? hr (by simpa using hl)
    show s.line = s.line + l.breaks
    rw [Lexeme.breaks_of_not_isSpacing hlongest.solid, Nat.add_zero]
  | case3 s hr hs => rfl
  | case4 s hr c cs hs => exact (line_pastInvalid s c cs).symm

/-- No call goes back to an earlier line. -/
theorem line_le_next (s : Scanner) : s.line ≤ s.next.2.line := by
  fun_induction next s with
  | case1 s l rest hr hl ih => exact Nat.le_trans (Nat.le_add_right _ _) ih
  | case2 s l rest hr hl => exact Nat.le_add_right _ _
  | case3 s hr hs => exact Nat.le_refl _
  | case4 s hr c cs hs => exact Nat.le_of_eq (line_pastInvalid s c cs).symm

/-- A call of a scanner that has counted all line feeds so far names the line of what it gives. -/
theorem IsExact.counts {s : Scanner} (h : s.IsExact) : Counts s.text s.next := by
  fun_induction next s with
  | case1 s l rest hr hl ih =>
    rw [← text_past hr]
    exact ih (h.past hr)
  | case2 s l rest hr hl =>
    have hpiece := Lexeme.text_append_of_read? hr
    refine .token (Lexeme.kind_ne_finish_of_read? hr) ⟨s.passed.reverse, ?_, ?_, ?_⟩
    · simp [Scanner.past, Token.text]
    · simp [Scanner.past, Token.text, text, hpiece]
    · rw [List.count_reverse]
      exact h
  | case3 s hr hs =>
    refine .finish hs ?_
    rw [text, hs, List.append_nil, List.count_reverse]
    exact h
  | case4 s hr c cs hs =>
    have hline : s.line = 1 + s.passed.reverse.count '\n' := by
      rw [List.count_reverse]
      exact h
    rw [hs] at hr
    have hcharacter := character_invalidCharacter hs
    by_cases hc : c = '{'
    · subst hc
      exact .unclosed hcharacter (not_closed_of_stuck hr) (by simp [pastInvalid])
        ⟨s.passed.reverse, by simp [pastInvalid], by simp [pastInvalid, text, hs], hline⟩
    · refine .invalid (by rwa [hcharacter]) ⟨s.passed.reverse, ?_, ?_, hline⟩
      · simp [pastInvalid, hc, hcharacter]
      · simp [pastInvalid, hc, hcharacter, text, hs]

/-- All line feeds have been counted behind an answer, too, unless it reports an unclosed brace. -/
theorem IsExact.next {s : Scanner} (h : s.IsExact) (hn : ¬ IsUnclosed s.next.1) :
    s.next.2.IsExact := by
  fun_induction Scanner.next s with
  | case1 s l rest hr hl ih => exact ih (h.past hr) hn
  | case2 s l rest hr hl => exact h.past hr
  | case3 s hr hs => exact h
  | case4 s hr c cs hs =>
    have hc : ¬ s.invalidCharacter.character = '{' := hn
    rw [character_invalidCharacter hs] at hc
    rw [hs] at hr
    rw [pastInvalid, if_neg hc]
    unfold IsExact at h ⊢
    rw [List.count_cons_of_ne (ne_newline_of_stuck hr)]
    exact h

/-- A call at the end of the text leaves the scanner as it is. -/
theorem next_of_rest_eq_nil {s : Scanner} (hs : s.rest = []) :
    s.next = (.ok (.finish s.line), s) := by
  rw [Scanner.next]
  split
  · rename_i hread
    rw [hs] at hread
    cases hread
  · rw [hs]

/-- An unclosed brace takes the rest of the text with it. -/
theorem rest_of_isUnclosed {s : Scanner} (h : IsUnclosed s.next.1) : s.next.2.rest = [] := by
  fun_induction Scanner.next s with
  | case1 s l rest hr hl ih => exact ih h
  | case2 s l rest hr hl => exact h.elim
  | case3 s hr hs => exact h.elim
  | case4 s hr c cs hs =>
    have hc : s.invalidCharacter.character = '{' := h
    rw [character_invalidCharacter hs] at hc
    rw [pastInvalid, if_pos hc]

/-! ## Any number of calls -/

variable {s : Scanner}

theorem text_afterCalls (n : Nat) : (s.afterCalls n).text = s.text := by
  induction n with
  | zero => rfl
  | succ n ih => exact (text_next _).trans ih

theorem isExact_afterCalls {n : Nat} (hs : s.IsExact) (h : ∀ i < n, ¬ IsUnclosed (s.answer i)) :
    (s.afterCalls n).IsExact := by
  induction n with
  | zero => exact hs
  | succ n ih =>
    exact (ih fun i hi => h i (Nat.lt_succ_of_lt hi)).next (h n (Nat.lt_succ_self n))

theorem line_afterCalls_le {m n : Nat} (h : m ≤ n) :
    (s.afterCalls m).line ≤ (s.afterCalls n).line := by
  induction n, h using Nat.le_induction with
  | base => exact Nat.le_refl _
  | succ n _ ih => exact Nat.le_trans ih (line_le_next _)

/-- Behind an unclosed brace every call stays where it is. -/
theorem afterCalls_of_rest_eq_nil {m n : Nat} (hr : (s.afterCalls m).rest = []) (h : m ≤ n) :
    s.afterCalls n = s.afterCalls m := by
  induction n, h using Nat.le_induction with
  | base => rfl
  | succ n _ ih =>
    show (s.afterCalls n).next.2 = _
    rw [ih, next_of_rest_eq_nil hr]

/-- However often a scanner over a source text is called, the line of every token and of every
character that starts nothing is one more than the number of line feeds before it, without the
blanks in front of the text, and the end of the input is on the last line, until a brace is reported
that is never closed. The brace is on its line, too, and every call after that gives the end of the
input on the line of the brace. The scanner is always on the line of what it has given last, and
lines never go back. -/
theorem lines_of_answers (source : String) :
    (∀ n, (∀ i < n, ¬ IsUnclosed ((ofSource source).answer i)) →
      Counts (Text.trim source.toList) ((ofSource source).afterCalls n).next) ∧
    (∀ m n, IsUnclosed ((ofSource source).answer m) → m < n →
      (ofSource source).answer n = .ok (.finish (lineOf ((ofSource source).answer m)))) ∧
    (∀ n, ((ofSource source).afterCalls (n + 1)).line = lineOf ((ofSource source).answer n)) ∧
    ∀ m n, m ≤ n → lineOf ((ofSource source).answer m) ≤ lineOf ((ofSource source).answer n) := by
  have lines : ∀ n, ((ofSource source).afterCalls (n + 1)).line =
      lineOf ((ofSource source).answer n) := fun n => (lineOf_next _).symm
  refine ⟨fun n h => ?_, fun m n hm hlt => ?_, lines, fun m n hle => ?_⟩
  · have hexact : (ofSource source).IsExact := rfl
    have htext : ((ofSource source).afterCalls n).text = Text.trim source.toList := text_afterCalls n
    rw [← htext]
    exact (isExact_afterCalls hexact h).counts
  · have hrest : ((ofSource source).afterCalls (m + 1)).rest = [] := rest_of_isUnclosed hm
    rw [answer, afterCalls_of_rest_eq_nil hrest hlt, next_of_rest_eq_nil hrest, lines]
  · rw [← lines m, ← lines n]
    exact line_afterCalls_le (Nat.succ_le_succ hle)

end PocketPascal.Scanner
