import PocketPascal.Proofs.Token.Answers
import PocketPascal.Proofs.Token.Course

/-!
# Attempts to eat

Whatever a reader of the grammar does, it moves its cursor by attempts to eat. An attempt succeeds,
meets a token of another kind, or finds that the token after the current one cannot be scanned, and
then reading may go on from where it has failed. The main statement is that the books are kept
through any attempts: the tokens that the scanner has returned are those that have been eaten and the
current one, and the cursor remembers the last of those that have been eaten.
-/

namespace PocketPascal

namespace Scanner

/-- The tokens that the first calls have returned; calls that end with an error return none. -/
def returned (s : Scanner) (n : Nat) : List Token :=
  (List.range n).filterMap fun i => (s.answer i).toOption

variable {s : Scanner} {n : Nat}

theorem returned_succ_of_ok {t : Token} (h : s.answer n = .ok t) :
    s.returned (n + 1) = s.returned n ++ [t] := by
  simp [returned, List.range_succ, h, Except.toOption]

theorem returned_succ_of_error {e : LexicalError} (h : s.answer n = .error e) :
    s.returned (n + 1) = s.returned n := by
  simp [returned, List.range_succ, h, Except.toOption]

theorem returned_next_of_ok {t : Token} (h : s.next.1 = .ok t) :
    s.returned (n + 1) = t :: s.next.2.returned n := by
  have hfirst : s.answer 0 = .ok t := h
  have hothers : s.next.2.answer = fun i => s.answer (i + 1) := funext (answer_next s)
  simp [returned, List.range_succ_eq_map, hfirst, hothers, Except.toOption, List.filterMap_map]

/-- More calls do not take back what has been returned. -/
theorem returned_prefix {m : Nat} (h : n ≤ m) : s.returned n <+: s.returned m := by
  induction m, h using Nat.le_induction with
  | base => exact List.prefix_refl _
  | succ m _ ih =>
    cases ha : s.answer m with
    | ok t =>
      rw [returned_succ_of_ok ha]
      exact ih.trans (List.prefix_append _ _)
    | error e => rwa [returned_succ_of_error ha]

/-- Calls none of which fails return one token each. -/
theorem length_returned (h : ∀ i < n, ∃ t, s.answer i = .ok t) : (s.returned n).length = n := by
  induction n with
  | zero => rfl
  | succ n ih =>
    obtain ⟨t, ht⟩ := h n (Nat.lt_succ_self n)
    rw [returned_succ_of_ok ht, List.length_append, List.length_singleton,
      ih fun i hi => h i (Nat.lt_succ_of_lt hi)]

end Scanner

/-- A pull from the feed behind some calls is one more call. -/
theorem Feed.pull_ofScanner_afterCalls {s : Scanner} {n : Nat} {answer : Except LexicalError Token}
    {ahead : Feed} (h : (Feed.ofScanner (s.afterCalls n)).pull = (answer, ahead)) :
    s.answer n = answer ∧ ahead = Feed.ofScanner (s.afterCalls (n + 1)) := by
  rw [Feed.pull_ofScanner] at h
  exact ⟨(Prod.ext_iff.1 h).1, (Prod.ext_iff.1 h).2.symm⟩

/-! ## One attempt -/

/-- An attempt to eat: the cursor on which it is made, and the kind of token that it asks for. -/
structure Attempt where
  /-- The cursor before the attempt. -/
  cursor : Cursor
  /-- The kind of token that is asked for. -/
  kind : Kind
  /-- The end of the input is never asked for. -/
  solid : kind ≠ .finish

namespace Attempt

/-- What becomes of the attempt. -/
def outcome (a : Attempt) : Reading a.cursor.remaining Token := a.cursor.eat a.kind a.solid

/-- The cursor behind the attempt. -/
def next (a : Attempt) : Cursor := a.outcome.after

/-- The token that has been eaten, if the attempt has succeeded. -/
def eaten? (a : Attempt) : Option Token := a.outcome.result.toOption

/-- Whether the attempt has called the scanner. It does so if the current token fits. -/
def calls (a : Attempt) : Bool := a.cursor.isAt a.kind

/-- The three ways in which an attempt ends. -/
theorem outcome_cases (a : Attempt) :
    (a.calls = false ∧ a.outcome = .failed (a.cursor.unexpected a.kind) a.cursor) ∨
    (∃ e ahead, a.calls = true ∧ a.cursor.ahead.pull = (.error e, ahead) ∧
      a.outcome = .failed (.lexical e) { a.cursor with ahead }) ∨
    ∃ next ahead lt, a.calls = true ∧ a.cursor.ahead.pull = (.ok next, ahead) ∧
      a.outcome = .done a.cursor.current (a.cursor.advance next ahead) lt := by
  by_cases hc : a.cursor.current.kind = a.kind
  · have hcalls : a.calls = true := decide_eq_true hc
    cases hp : a.cursor.ahead.pull with
    | mk answer ahead =>
      cases answer with
      | error e => exact .inr (.inl ⟨e, ahead, hcalls, rfl, Cursor.eat_of_pull_error a.solid hc hp⟩)
      | ok next =>
        exact .inr (.inr ⟨next, ahead, _, hcalls, rfl, Cursor.eat_of_pull_ok a.solid hc hp⟩)
  · exact .inl ⟨decide_eq_false hc, Cursor.eat_of_ne a.solid hc⟩

/-- An attempt that fails changes neither the current token nor what is remembered. If that is for a
token of another kind, it changes nothing at all, and the error shows this token and what is
remembered. -/
theorem spared_of_failed {a : Attempt} {cause : SyntaxError} {c : Cursor}
    (h : a.outcome = .failed cause c) :
    c.current = a.cursor.current ∧ c.recent = a.cursor.recent ∧
      ((∃ e, cause = .lexical e) ∨
        cause = .unexpected a.kind a.cursor.current.culprit a.cursor.recent ∧ c = a.cursor) := by
  rcases a.outcome_cases with ⟨-, ho⟩ | ⟨e, ahead, -, -, ho⟩ | ⟨next, ahead, lt, -, -, ho⟩
  · rw [ho] at h
    cases h
    exact ⟨rfl, rfl, .inr ⟨rfl, rfl⟩⟩
  · rw [ho] at h
    cases h
    exact ⟨rfl, rfl, .inl ⟨e, rfl⟩⟩
  · rw [ho] at h
    cases h

end Attempt

/-! ## Attempts one after another -/

/-- The tokens that attempts have eaten, in order. -/
def eatenBy (as : List Attempt) : List Token := as.filterMap Attempt.eaten?

/-- How often attempts have called the scanner. -/
def callsBy (as : List Attempt) : Nat := as.countP Attempt.calls

theorem eatenBy_concat (as : List Attempt) (a : Attempt) :
    eatenBy (as ++ [a]) = eatenBy as ++ a.eaten?.toList := by
  rw [eatenBy, List.filterMap_append, ← eatenBy]
  cases h : a.eaten? <;> simp [h]

theorem callsBy_concat (as : List Attempt) (a : Attempt) :
    callsBy (as ++ [a]) = callsBy as + a.calls.toNat := by
  rw [callsBy, List.countP_append, ← callsBy]
  cases h : a.calls <;> simp [h]

namespace Cursor

/-- The attempts are made one after another, from one cursor to another. -/
inductive Leads : Cursor → List Attempt → Cursor → Prop where
  /-- No attempt. -/
  | none (c : Cursor) : Leads c [] c
  /-- An attempt, whatever becomes of it, and others after it. -/
  | more {a : Attempt} {as : List Attempt} {c : Cursor} (h : Leads a.next as c) :
      Leads a.cursor (a :: as) c

variable {c c₁ c' : Cursor} {as bs : List Attempt}

theorem Leads.trans (h : c.Leads as c₁) (h' : c₁.Leads bs c') : c.Leads (as ++ bs) c' := by
  induction h with
  | none c => exact h'
  | more _ ih => exact .more (ih h')

theorem Leads.of_append (h : c.Leads (as ++ bs) c') : ∃ c₁, c.Leads as c₁ ∧ c₁.Leads bs c' := by
  induction as generalizing c with
  | nil => exact ⟨c, .none c, h⟩
  | cons a as ih =>
    cases h with
    | more h =>
      obtain ⟨c₁, has, hbs⟩ := ih h
      exact ⟨c₁, .more has, hbs⟩

theorem leads_single (a : Attempt) : a.cursor.Leads [a] a.next := .more (.none _)

/-- What is remembered after one more token are the last tokens again. -/
theorem remember_drop (ts : List Token) (t : Token) :
    remember (ts.drop (ts.length - recentCount)) t =
      (ts ++ [t]).drop ((ts ++ [t]).length - recentCount) := by
  unfold remember recentCount
  simp only [List.length_drop, List.length_append, List.length_singleton]
  by_cases h : 5 ≤ ts.length
  · have hfull : ts.length - (ts.length - 5) = 5 := by omega
    have hnext : ts.length + 1 - 5 = ts.length - 5 + 1 := by omega
    rw [if_pos hfull, hnext, List.tail_drop, List.drop_append_of_le_length (by omega)]
  · have hroom : ¬ ts.length - (ts.length - 5) = 5 := by omega
    have hall : ts.length - 5 = 0 := by omega
    have hnext : ts.length + 1 - 5 = 0 := by omega
    rw [if_neg hroom, hall, hnext, List.drop_zero, List.drop_zero]

end Cursor

/-! ## The books -/

/-- The books of a cursor over a source text that has come to where it is by the attempts. The first
token has been asked for before the first of them. -/
structure Balanced (source : String) (as : List Attempt) (c : Cursor) : Prop where
  /-- The tokens that have been returned are those that were eaten, and the current one. -/
  returned : (Scanner.ofSource source).returned (1 + callsBy as) = eatenBy as ++ [c.current]
  /-- The tokens that are remembered are the last ones that were eaten. -/
  recent : c.recent = (eatenBy as).drop ((eatenBy as).length - Cursor.recentCount)
  /-- The next tokens are those of the calls to come. -/
  ahead : c.ahead = Feed.ofScanner ((Scanner.ofSource source).afterCalls (1 + callsBy as))

namespace Balanced

variable {source : String} {as : List Attempt}

theorem start {c : Cursor} (h : Cursor.ofSource source = .ok c) : Balanced source [] c := by
  have hrecent : c.recent = [] := by
    unfold Cursor.ofSource Cursor.ofFeed at h
    split at h
    · cases h
      rfl
    · cases h
  obtain ⟨s', hn, ha⟩ := Cursor.standsAt_ofSource h
  have hanswer : (Scanner.ofSource source).answer 0 = .ok c.current := (Prod.ext_iff.1 hn).1
  have hafter : (Scanner.ofSource source).afterCalls 1 = s' := (Prod.ext_iff.1 hn).2
  exact ⟨Scanner.returned_succ_of_ok hanswer, hrecent, by rw [ha, ← hafter]; rfl⟩

/-- One attempt keeps the books, whatever becomes of it. -/
theorem attempt {a : Attempt} (h : Balanced source as a.cursor) :
    Balanced source (as ++ [a]) a.next := by
  obtain ⟨hreturned, hrecent, hahead⟩ := h
  rcases a.outcome_cases with ⟨hc, ho⟩ | ⟨e, ahead, hc, hp, ho⟩ | ⟨next, ahead, lt, hc, hp, ho⟩
  · -- a token of another kind: the scanner has not been called
    have heaten : eatenBy (as ++ [a]) = eatenBy as := by
      simp [eatenBy_concat, Attempt.eaten?, ho, Except.toOption]
    have hcalls : callsBy (as ++ [a]) = callsBy as := by simp [callsBy_concat, hc]
    rw [Attempt.next, ho]
    exact ⟨by rwa [heaten, hcalls], by rwa [heaten], by rwa [hcalls]⟩
  · -- a call that has ended with an error
    have heaten : eatenBy (as ++ [a]) = eatenBy as := by
      simp [eatenBy_concat, Attempt.eaten?, ho, Except.toOption]
    have hcalls : 1 + callsBy (as ++ [a]) = 1 + callsBy as + 1 := by
      simp [callsBy_concat, hc, Nat.add_assoc]
    rw [hahead] at hp
    obtain ⟨hanswer, hnext⟩ := Feed.pull_ofScanner_afterCalls hp
    rw [Attempt.next, ho]
    refine ⟨?_, by rwa [heaten], by rwa [hcalls]⟩
    rw [heaten, hcalls, Scanner.returned_succ_of_error hanswer]
    exact hreturned
  · -- a call that has returned a token
    have heaten : eatenBy (as ++ [a]) = eatenBy as ++ [a.cursor.current] := by
      simp [eatenBy_concat, Attempt.eaten?, ho, Except.toOption]
    have hcalls : 1 + callsBy (as ++ [a]) = 1 + callsBy as + 1 := by
      simp [callsBy_concat, hc, Nat.add_assoc]
    rw [hahead] at hp
    obtain ⟨hanswer, hnext⟩ := Feed.pull_ofScanner_afterCalls hp
    rw [Attempt.next, ho]
    refine ⟨?_, ?_, by rwa [hcalls]⟩
    · rw [heaten, hcalls, Scanner.returned_succ_of_ok hanswer, hreturned]
      rfl
    · rw [heaten, ← Cursor.remember_drop, ← hrecent]
      rfl

/-- Any attempts keep the books. -/
theorem leads {bs : List Attempt} {c c' : Cursor} (hb : Balanced source as c)
    (h : c.Leads bs c') : Balanced source (as ++ bs) c' := by
  induction h generalizing as with
  | none c => rwa [List.append_nil]
  | more _ ih =>
    rw [List.append_cons]
    exact ih hb.attempt

end Balanced

end PocketPascal
