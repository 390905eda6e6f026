import Mathlib.Data.Nat.Find
import PocketPascal.Proofs.Token.Attempts

/-!
# The progress of a scanner

A call of a scanner may pass over any amount of spacing before it gives something. Still every call
moves the position on, unless it gives the end of the input, and from then on nothing moves.
So the end of the input comes after no more calls than the text has characters, errors included, and
the list of all tokens is complete after as many calls as have been made for it: they come either to
the end of the input, which is the last token and the only one of its kind, or to an error.
-/

namespace PocketPascal.Scanner

/-- How many characters of the text are in front of the position. -/
def position (s : Scanner) : Nat := s.passed.length

/-- The answer is the end of the input. -/
def IsEnd : Except LexicalError Token → Prop
  | .ok t => t.kind = .finish
  | .error _ => False

/-- The outcome of asking for all tokens, and the scanner behind it, by the answers of so many
calls. None of them but the last is an error or the end of the input. -/
inductive Collects (s : Scanner) : Nat → Except LexicalError (List Token) × Scanner → Prop where
  /-- The last call gives the end of the input, and all of them give the list. -/
  | complete {n line : Nat} (before : ∀ i < n, ∃ t, s.answer i = .ok t ∧ t.kind ≠ .finish)
      (last : s.answer n = .ok (.finish line)) :
      Collects s (n + 1) (.ok (s.returned n ++ [.finish line]), s.afterCalls (n + 1))
  /-- The last call gives an error. -/
  | failed {n : Nat} {e : LexicalError}
      (before : ∀ i < n, ∃ t, s.answer i = .ok t ∧ t.kind ≠ .finish)
      (last : s.answer n = .error e) : Collects s (n + 1) (.error e, s.afterCalls (n + 1))

variable {s : Scanner} {m n : Nat}

/-! ## Positions -/

theorem position_add_length (s : Scanner) : s.position + s.rest.length = s.text.length := by
  simp [position, text]

theorem rest_eq_drop (s : Scanner) : s.rest = s.text.drop s.position := by
  simp [position, text]

/-- A call that gives anything but the end of the input moves the position on. -/
theorem position_lt_next (h : ¬ IsEnd s.next.1) : s.position < s.next.2.position := by
  have hbefore := position_add_length s
  have hafter := position_add_length s.next.2
  rw [text_next] at hafter
  rcases next_eq_finish_or_length_lt s with ⟨line, hline⟩ | hlt
  · exact absurd (by rw [hline]; rfl) h
  · omega

/-- The position is at least the number of calls, as long as the end of the input has not come. -/
theorem le_position_afterCalls (h : ∀ i < n, ¬ IsEnd (s.answer i)) :
    s.position + n ≤ (s.afterCalls n).position := by
  induction n with
  | zero => simp [afterCalls]
  | succ n ih =>
    have hle := ih fun i hi => h i (Nat.lt_succ_of_lt hi)
    have hlt : (s.afterCalls n).position < (s.afterCalls (n + 1)).position :=
      position_lt_next (h n (Nat.lt_succ_self n))
    omega

/-- No more calls than there are characters left give anything but the end of the input. -/
theorem le_length_of_not_isEnd (h : ∀ i < n, ¬ IsEnd (s.answer i)) :
    s.position + n ≤ s.text.length := by
  have hle := le_position_afterCalls h
  have hlength := position_add_length (s.afterCalls n)
  rw [text_afterCalls] at hlength
  omega

/-! ## What a call takes away -/

/-- The text of a token is a part of what was left before it and is not left behind it. -/
theorem length_text_add_le {t : Token} {s' : Scanner} (h : s.next = (.ok t, s')) :
    t.text.toList.length + s'.rest.length ≤ s.rest.length := by
  fun_induction next s with
  | case1 s l rest hr hl ih =>
    have hlt := Lexeme.length_lt_of_read? hr
    have hle := ih h
    simp only [past] at hle
    omega
  | case2 s l rest hr hl =>
    cases h
    have hlength := congrArg List.length (Lexeme.text_append_of_read? hr)
    simp only [List.length_append] at hlength
    simp [Token.text, past]
    omega
  | case3 s hr hs =>
    cases h
    simp [Token.text, Token.finish]
  | case4 s hr c cs hs => cases h

/-- Only the end of the input has no text. -/
theorem length_text_pos {t : Token} {s' : Scanner} (h : s.next = (.ok t, s'))
    (hk : t.kind ≠ .finish) : 0 < t.text.toList.length := by
  fun_induction next s with
  | case1 s l rest hr hl ih => exact ih h
  | case2 s l rest hr hl =>
    cases h
    have hlt := Lexeme.length_lt_of_read? hr
    have hlength := congrArg List.length (Lexeme.text_append_of_read? hr)
    simp only [List.length_append] at hlength
    simp [Token.text]
    omega
  | case3 s hr hs =>
    cases h
    exact absurd rfl hk
  | case4 s hr c cs hs => cases h

theorem length_rest_next_le (s : Scanner) : s.next.2.rest.length ≤ s.rest.length := by
  cases h : s.next with
  | mk answer s' =>
    cases answer with
    | ok t =>
      have hle := length_text_add_le h
      exact Nat.le_trans (Nat.le_add_left _ _) hle
    | error e => exact Nat.le_of_lt (length_lt_of_next_error h)

theorem length_rest_afterCalls_le (h : m ≤ n) :
    (s.afterCalls n).rest.length ≤ (s.afterCalls m).rest.length := by
  induction n, h using Nat.le_induction with
  | base => exact Nat.le_refl _
  | succ n _ ih => exact Nat.le_trans (length_rest_next_le _) ih

/-! ## The end of the input -/

theorem exists_line_of_isEnd (h : IsEnd (s.answer n)) :
    ∃ line, s.answer n = .ok (.finish line) ∧
      (s.afterCalls (n + 1)).next = (.ok (.finish line), s.afterCalls (n + 1)) := by
  cases ha : s.answer n with
  | error e =>
    rw [ha] at h
    exact h.elim
  | ok t =>
    rw [ha] at h
    have hnext : (s.afterCalls n).next = (.ok t, s.afterCalls (n + 1)) := Prod.ext ha rfl
    obtain ⟨ht, hstays⟩ := next_of_finish hnext h
    rw [ht] at hstays ⊢
    exact ⟨_, rfl, hstays⟩

/-- Behind the end of the input the scanner stays as it is, and it gives the same again. -/
theorem stays_of_answer {line : Nat} (h : s.answer m = .ok (.finish line)) (hle : m ≤ n) :
    s.answer n = .ok (.finish line) ∧ s.afterCalls (n + 1) = s.afterCalls (m + 1) := by
  have hend : IsEnd (s.answer m) := by
    rw [h]
    rfl
  obtain ⟨line', hline, hstays⟩ := exists_line_of_isEnd hend
  rw [h] at hline
  cases hline
  induction n, hle using Nat.le_induction with
  | base => exact ⟨h, rfl⟩
  | succ n _ ih =>
    have hsame : (s.afterCalls (n + 1)).next = (.ok (.finish line), s.afterCalls (m + 1)) := by
      rw [ih.2, hstays]
    exact ⟨(Prod.ext_iff.1 hsame).1, (Prod.ext_iff.1 hsame).2⟩

/-- From the end of the input on, the calls return it again and again. -/
theorem returned_of_answer {line : Nat} (h : s.answer m = .ok (.finish line)) (hle : m ≤ n) :
    s.returned n = s.returned m ++ List.replicate (n - m) (.finish line) := by
  induction n, hle using Nat.le_induction with
  | base => simp
  | succ n hle ih =>
    have hmore : n + 1 - m = n - m + 1 := by omega
    rw [returned_succ_of_ok (stays_of_answer h hle).1, ih, hmore, List.replicate_succ',
      List.append_assoc]

/-- The first call that gives the end of the input. -/
theorem exists_first_isEnd (s : Scanner) :
    ∃ n, s.position + n ≤ s.text.length ∧ (∀ i < n, ¬ IsEnd (s.answer i)) ∧
      ∃ line, s.answer n = .ok (.finish line) := by
  classical
  have hsome : ∃ n, IsEnd (s.answer n) := by
    by_contra hnone
    push Not at hnone
    have hle := le_length_of_not_isEnd (n := s.text.length + 1) fun i _ => hnone i
    omega
  have hbefore : ∀ i < Nat.find hsome, ¬ IsEnd (s.answer i) := fun i hi => Nat.find_min hsome hi
  obtain ⟨line, hline, -⟩ := exists_line_of_isEnd (Nat.find_spec hsome)
  exact ⟨Nat.find hsome, le_length_of_not_isEnd hbefore, hbefore, line, hline⟩

/-! ## All tokens -/

theorem not_isEnd_of_ok {answer : Except LexicalError Token}
    (h : ∃ t, answer = .ok t ∧ t.kind ≠ .finish) : ¬ IsEnd answer := by
  obtain ⟨t, rfl, ht⟩ := h
  exact ht

/-- One more token in front of the others is one more call in front of theirs. -/
theorem Collects.cons {t : Token} {s₁ s₂ : Scanner} {result : Except LexicalError (List Token)}
    (hn : s.next = (.ok t, s₁)) (hk : t.kind ≠ .finish) (h : s₁.Collects n (result, s₂)) :
    s.Collects (n + 1) (result.map (t :: ·), s₂) := by
  obtain rfl : s.next.2 = s₁ := (Prod.ext_iff.1 hn).2
  have hfirst : s.answer 0 = .ok t := (Prod.ext_iff.1 hn).1
  have hbefore : ∀ {n : Nat}, (∀ i < n, ∃ t, s.next.2.answer i = .ok t ∧ t.kind ≠ .finish) →
      ∀ i < n + 1, ∃ t, s.answer i = .ok t ∧ t.kind ≠ .finish := by
    intro n h i hi
    cases i with
    | zero => exact ⟨t, hfirst, hk⟩
    | succ i =>
      rw [← answer_next]
      exact h i (Nat.lt_of_succ_lt_succ hi)
  cases h with
  | @complete n line before last =>
    have hall : (t :: s.next.2.returned n) ++ [.finish line] =
        s.returned (n + 1) ++ [.finish line] := by
      rw [returned_next_of_ok (s := s) hfirst]
    rw [answer_next] at last
    rw [afterCalls_next]
    show s.Collects (n + 2) (.ok ((t :: s.next.2.returned n) ++ [.finish line]), _)
    rw [hall]
    exact .complete (hbefore before) last
  | failed before last =>
    rw [answer_next] at last
    rw [afterCalls_next]
    exact .failed (hbefore before) last

/-- Asking for all tokens comes to its outcome after some calls. -/
theorem exists_collects (s : Scanner) : ∃ n, s.Collects n s.tokenize := by
  fun_induction tokenize s with
  | case1 s t s₁ h hk =>
    obtain ⟨rfl, -⟩ := next_of_finish h hk
    obtain ⟨hfirst, rfl⟩ := Prod.ext_iff.1 h
    exact ⟨1, .complete (fun i hi => absurd hi (Nat.not_lt_zero i)) hfirst⟩
  | case2 s t s₁ h hk ts s₂ hts ih =>
    rw [hts] at ih
    obtain ⟨n, hn⟩ := ih
    exact ⟨n + 1, hn.cons h hk⟩
  | case3 s t s₁ h hk e s₂ hts ih =>
    rw [hts] at ih
    obtain ⟨n, hn⟩ := ih
    exact ⟨n + 1, hn.cons h hk⟩
  | case4 s e s₁ h =>
    obtain ⟨hfirst, rfl⟩ := Prod.ext_iff.1 h
    exact ⟨1, .failed (fun i hi => absurd hi (Nat.not_lt_zero i)) hfirst⟩

/-- There are no more calls for all tokens than characters left, and one for the end. -/
theorem Collects.le_length {outcome : Except LexicalError (List Token) × Scanner}
    (h : s.Collects n outcome) : s.position + n ≤ s.text.length + 1 := by
  cases h with
  | complete before _ =>
    have hle := le_length_of_not_isEnd fun i hi => not_isEnd_of_ok (before i hi)
    omega
  | failed before _ =>
    have hle := le_length_of_not_isEnd fun i hi => not_isEnd_of_ok (before i hi)
    omega

theorem kind_ne_finish_of_mem_returned (h : ∀ i < n, ∃ t, s.answer i = .ok t ∧ t.kind ≠ .finish) :
    ∀ t ∈ s.returned n, t.kind ≠ .finish := by
  intro t ht
  obtain ⟨i, hi, htoken⟩ := List.mem_filterMap.1 ht
  obtain ⟨u, hu, hk⟩ := h i (List.mem_range.1 hi)
  rw [hu] at htoken
  cases htoken
  exact hk

theorem Collects.exists_of_ok {all : List Token} {s' : Scanner} (h : s.Collects n (.ok all, s')) :
    ∃ ts line, all = ts ++ [.finish line] ∧ ∀ t ∈ ts, t.kind ≠ .finish := by
  cases h with
  | complete before _ => exact ⟨_, _, rfl, kind_ne_finish_of_mem_returned before⟩

/-! ## Source texts -/

/-- The scanner runs over the text from its beginning to its end, and no further. -/
structure ReachesEnd (text : List Char) (s : Scanner) : Prop where
  /-- After any calls the scanner stands at a position of the text. -/
  place : ∀ n, (s.afterCalls n).position ≤ text.length ∧
    (s.afterCalls n).rest = text.drop (s.afterCalls n).position
  /-- A call that gives a token other than the end of the input, or an error, moves it on. -/
  progress : ∀ n, ¬ IsEnd (s.answer n) → (s.afterCalls n).position < (s.afterCalls (n + 1)).position
  /-- A brace that is never closed moves it to the end. -/
  unclosed : ∀ n, IsUnclosed (s.answer n) → (s.afterCalls (n + 1)).position = text.length
  /-- The end of the input comes after no more calls than there are characters, errors included, and
  from then on every call gives the same and leaves the scanner as it is. -/
  finish : ∃ last line, last ≤ text.length ∧ (∀ n < last, ¬ IsEnd (s.answer n)) ∧
    ∀ n, last ≤ n → s.answer n = .ok (.finish line) ∧ s.afterCalls (n + 1) = s.afterCalls (last + 1)
  /-- After any calls, asking for all tokens takes no more than one call for each character and one
  for the end. A list of all tokens has the end of the input as its last token and nowhere else. -/
  tokens : ∀ m, (∃ n, n ≤ text.length + 1 ∧ (s.afterCalls m).Collects n (s.afterCalls m).tokenize) ∧
    ∀ all, (s.afterCalls m).tokenize.1 = .ok all →
      ∃ ts line, all = ts ++ [.finish line] ∧ ∀ t ∈ ts, t.kind ≠ .finish

/-- The scanner of a source text makes progress with every token and every error until it comes to
the end of the trimmed text, and there it stays. -/
theorem reachesEnd_ofSource (source : String) :
    ReachesEnd (Text.trim source.toList) (ofSource source) := by
  have htext : ∀ n, ((ofSource source).afterCalls n).text = Text.trim source.toList :=
    text_afterCalls
  have hplace : ∀ n, ((ofSource source).afterCalls n).position +
      ((ofSource source).afterCalls n).rest.length = (Text.trim source.toList).length := by
    intro n
    rw [position_add_length, htext]
  refine ⟨fun n => ⟨?_, ?_⟩, fun n h => position_lt_next h, fun n h => ?_, ?_, fun m => ⟨?_, ?_⟩⟩
  · have hsum := hplace n
    omega
  · rw [rest_eq_drop, htext]
  · have hrest : ((ofSource source).afterCalls (n + 1)).rest = [] := rest_of_isUnclosed h
    have hsum := hplace (n + 1)
    rwa [hrest, List.length_nil, Nat.add_zero] at hsum
  · obtain ⟨last, hle, hbefore, line, hline⟩ := exists_first_isEnd (ofSource source)
    have hlength : (ofSource source).text.length = (Text.trim source.toList).length := rfl
    exact ⟨last, line, by omega, hbefore, fun n hn => stays_of_answer hline hn⟩
  · obtain ⟨n, hn⟩ := exists_collects ((ofSource source).afterCalls m)
    have hle := hn.le_length
    rw [htext] at hle
    exact ⟨n, by omega, hn⟩
  · intro all hall
    obtain ⟨n, hn⟩ := exists_collects ((ofSource source).afterCalls m)
    have houtcome : ((ofSource source).afterCalls m).tokenize =
        (.ok all, ((ofSource source).afterCalls m).tokenize.2) := Prod.ext hall rfl
    rw [houtcome] at hn
    exact hn.exists_of_ok

end PocketPascal.Scanner
