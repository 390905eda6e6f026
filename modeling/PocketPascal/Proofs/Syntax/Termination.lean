import PocketPascal.Proofs.Syntax.Acceptance
import PocketPascal.Proofs.Syntax.Extent
import PocketPascal.Proofs.Syntax.StepBounds
import PocketPascal.Proofs.Token.Progress

/-!
# Reading comes to an end

The scanner gives the end of the input for ever, and the readers call each other without eating
anything in between. Still all of them come to an end, since a token that is eaten is never the end
of the input and takes its text away from what is left of the source text, and without a token the
calls go down only a few levels. The main statement says this of every run of every routine,
wherever in a source text it begins, and it counts the tokens that are eaten: there are no more of
them than the scanner returns before the end of the input.
-/

namespace PocketPascal

variable {source : String} {as : List Attempt} {c : Cursor} {t : Token}

/-! ## What is left of the source text -/

/-- A scanner has no more answers to give than characters are left for it. -/
theorem Feed.length_ofScanner_le (s : Scanner) :
    (Feed.ofScanner s).answers.length ≤ s.rest.length := by
  induction s using Feed.ofScanner.induct with
  | case1 s t s' h hk => simp [ofScanner_of_finish h hk]
  | case2 s t s' h hk ih =>
    have hlt := Scanner.length_lt_of_next_ok h hk
    rw [ofScanner_of_ok h hk]
    simp only [cons, List.length_cons]
    omega
  | case3 s e s' h ih =>
    have hlt := Scanner.length_lt_of_next_error h
    rw [ofScanner_of_error h]
    simp only [cons, List.length_cons]
    omega

/-- How many characters of the source text are left for a cursor behind attempts to eat: those of
the current token, and those that the scanner has not come to. -/
def Cursor.unread (source : String) (as : List Attempt) (c : Cursor) : Nat :=
  c.current.text.toList.length + (Grammar.scannerBehind source as).rest.length

/-- An attempt that has succeeded has eaten the current token, which is not the end of the input. -/
theorem Attempt.current_of_eaten {a : Attempt} (h : a.eaten? = some t) :
    t = a.cursor.current ∧ t.kind ≠ .finish := by
  rcases a.outcome_cases with ⟨-, ho⟩ | ⟨e, ahead, -, -, ho⟩ | ⟨next, ahead, lt, hc, -, ho⟩
  · simp [eaten?, ho, Except.toOption] at h
  · simp [eaten?, ho, Except.toOption] at h
  · have hkind : a.cursor.current.kind = a.kind := of_decide_eq_true hc
    obtain rfl : a.cursor.current = t := by simpa [eaten?, ho, Except.toOption] using h
    exact ⟨rfl, hkind ▸ a.solid⟩

theorem kind_ne_finish_of_mem_eatenBy (h : t ∈ eatenBy as) : t.kind ≠ .finish := by
  obtain ⟨a, -, ha⟩ := List.mem_filterMap.1 h
  exact (Attempt.current_of_eaten ha).2

namespace Balanced

/-- The current token comes from one of the calls that have been made. -/
theorem exists_call (h : Balanced source as c) :
    ∃ i < 1 + callsBy as, ((Scanner.ofSource source).afterCalls i).next =
      (.ok c.current, (Scanner.ofSource source).afterCalls (i + 1)) := by
  have hmem : c.current ∈ (Scanner.ofSource source).returned (1 + callsBy as) := by
    rw [h.returned]
    exact List.mem_append_right _ (List.mem_singleton_self _)
  obtain ⟨i, hi, hreturned⟩ := List.mem_filterMap.1 hmem
  refine ⟨i, List.mem_range.1 hi, Prod.ext ?_ rfl⟩
  cases ha : (Scanner.ofSource source).answer i with
  | ok u =>
    rw [ha] at hreturned
    cases hreturned
    exact ha
  | error e =>
    rw [ha] at hreturned
    cases hreturned

/-- No more is left than the text has when it is trimmed. -/
theorem unread_le (h : Balanced source as c) :
    c.unread source as ≤ (Text.trim source.toList).length := by
  obtain ⟨i, hi, hcall⟩ := h.exists_call
  have htext := Scanner.length_text_add_le hcall
  have hbefore := Scanner.length_rest_afterCalls_le (s := Scanner.ofSource source) (Nat.zero_le i)
  have hmade : i + 1 ≤ 1 + callsBy as := hi
  have hbehind := Scanner.length_rest_afterCalls_le (s := Scanner.ofSource source) hmade
  have hall : (Scanner.ofSource source).rest.length = (Text.trim source.toList).length := rfl
  have hnone : (Scanner.ofSource source).afterCalls 0 = Scanner.ofSource source := rfl
  rw [hnone] at hbefore
  unfold Cursor.unread Grammar.scannerBehind
  omega

/-- No more tokens can be eaten than characters are left. -/
theorem remaining_le_unread (h : Balanced source as c) : c.remaining ≤ c.unread source as := by
  have hahead : c.ahead.answers.length ≤ (Grammar.scannerBehind source as).rest.length := by
    rw [h.ahead]
    exact Feed.length_ofScanner_le _
  unfold Cursor.remaining Cursor.unread
  by_cases hk : c.current.kind = .finish
  · rw [if_pos hk]
    omega
  · obtain ⟨i, -, hcall⟩ := h.exists_call
    have hpos := Scanner.length_text_pos hcall hk
    rw [if_neg hk]
    omega

variable {a : Attempt}

/-- A token that is eaten comes with the next one, from the call that has been made for it. -/
theorem call_of_eaten (h : Balanced source as a.cursor) (he : a.eaten? = some t) :
    (Grammar.scannerBehind source as).next =
        (.ok a.next.current, Grammar.scannerBehind source (as ++ [a])) := by
  rcases a.outcome_cases with ⟨-, ho⟩ | ⟨e, ahead, -, -, ho⟩ | ⟨next, ahead, lt, hc, hp, ho⟩
  · simp [Attempt.eaten?, ho, Except.toOption] at he
  · simp [Attempt.eaten?, ho, Except.toOption] at he
  · have hcalls : 1 + callsBy (as ++ [a]) = 1 + callsBy as + 1 := by
      simp [callsBy_concat, hc, Nat.add_assoc]
    have hcurrent : a.next.current = next := by
      rw [Attempt.next, ho]
      rfl
    rw [h.ahead] at hp
    rw [Grammar.scannerBehind, Grammar.scannerBehind, hcalls, hcurrent]
    exact Prod.ext (Feed.pull_ofScanner_afterCalls hp).1 rfl

/-- A token that is eaten takes its text away from what is left. -/
theorem unread_lt_of_eaten (h : Balanced source as a.cursor) (he : a.eaten? = some t) :
    a.next.unread source (as ++ [a]) < a.cursor.unread source as := by
  obtain ⟨rfl, hk⟩ := Attempt.current_of_eaten he
  obtain ⟨i, -, hcall⟩ := h.exists_call
  have hpos := Scanner.length_text_pos hcall hk
  have hle := Scanner.length_text_add_le (h.call_of_eaten he)
  unfold Cursor.unread
  omega

/-- A token that is eaten is one less of those that can still be eaten. -/
theorem remaining_of_eaten (h : Balanced source as a.cursor) (he : a.eaten? = some t) :
    a.next.remaining + 1 = a.cursor.remaining := by
  obtain ⟨rfl, hk⟩ := Attempt.current_of_eaten he
  have hcall := h.call_of_eaten he
  have hbefore : a.cursor.ahead = Feed.ofScanner (Grammar.scannerBehind source as) := h.ahead
  have hbehind : a.next.ahead = Feed.ofScanner (Grammar.scannerBehind source (as ++ [a])) :=
    h.attempt.ahead
  unfold Cursor.remaining
  rw [hbefore, hbehind, if_neg hk]
  by_cases hnext : a.next.current.kind = .finish
  · -- the end of the input comes again
    have hagain := (Scanner.next_of_finish hcall hnext).2
    rw [Feed.ofScanner_of_finish hcall hnext, Feed.ofScanner_of_finish hagain hnext, if_pos hnext]
  · rw [Feed.ofScanner_of_ok hcall hnext, if_neg hnext]
    rfl

/-- No more tokens are eaten than are returned before the end of the input. -/
theorem length_eatenBy_le (h : Balanced source as c) {last line : Nat}
    (hlast : (Scanner.ofSource source).answer last = .ok (.finish line)) :
    (eatenBy as).length ≤ ((Scanner.ofSource source).returned last).length := by
  have hreturned := h.returned
  rcases Nat.le_total (1 + callsBy as) last with hle | hle
  · have hlength := (Scanner.returned_prefix (s := Scanner.ofSource source) hle).length_le
    rw [hreturned, List.length_append] at hlength
    exact Nat.le_trans (Nat.le_add_right _ _) hlength
  · rw [Scanner.returned_of_answer hlast hle] at hreturned
    rcases List.append_eq_append_iff.1 hreturned with ⟨more, hmore, hends⟩ | ⟨more, hmore, -⟩
    · -- what would have been eaten beyond that are ends of the input
      cases more with
      | nil => simp [hmore]
      | cons u more =>
        have hu : u = .finish line := by
          refine List.eq_of_mem_replicate (n := 1 + callsBy as - last) ?_
          rw [hends]
          exact List.mem_append_left _ List.mem_cons_self
        have hmem : u ∈ eatenBy as := by
          rw [hmore]
          exact List.mem_append_right _ List.mem_cons_self
        exact absurd (congrArg Token.kind hu) (kind_ne_finish_of_mem_eatenBy hmem)
    · rw [hmore, List.length_append]
      exact Nat.le_add_right _ _

end Balanced

/-! ## The attempts of a descent -/

namespace Descent

variable {γ : Type}

/-- The attempts to eat that the first steps make, in order. -/
def attempts (a : Descent γ) (n : Nat) : List Attempt :=
  (List.range n).filterMap fun i => (step^[i] a).attempt?

theorem attempts_succ (a : Descent γ) (n : Nat) :
    a.attempts (n + 1) = a.attempts n ++ (step^[n] a).attempt?.toList := by
  unfold attempts
  rw [List.range_succ, List.filterMap_append]
  cases h : (step^[n] a).attempt? <;> simp [h]

/-- A step that makes an attempt moves the cursor as the attempt does. -/
theorem next_of_attempt {a : Descent γ} {b : Attempt} (h : a.attempt? = some b) :
    b.cursor = a.cursor ∧ b.next = a.step.cursor := by
  cases a with
  | halted c result => cases h
  | running c code stack =>
    cases code with
    | eat kind solid next =>
      cases h
      refine ⟨rfl, ?_⟩
      cases heat : c.eat kind solid with
      | done t c' lt =>
        rw [step_eat_of_done heat]
        exact congrArg Reading.after heat
      | failed cause c' =>
        rw [step_eat_of_failed heat]
        exact congrArg Reading.after heat
    | give value => cases h
    | object cause => cases h
    | look next => cases h
    | call routine next => cases h

/-- A step that makes no attempt leaves the cursor where it is. -/
theorem cursor_step_of_no_attempt {a : Descent γ} (h : a.attempt? = none) :
    a.step.cursor = a.cursor := by
  cases a with
  | halted c result => rfl
  | running c code stack =>
    cases code with
    | eat kind solid next => cases h
    | give value => cases stack <;> rfl
    | object cause => rfl
    | look next => rfl
    | call routine next => rfl

theorem leads_step (a : Descent γ) : a.cursor.Leads a.attempt?.toList a.step.cursor := by
  cases h : a.attempt? with
  | none =>
    rw [cursor_step_of_no_attempt h]
    exact .none _
  | some b =>
    obtain ⟨hcursor, hnext⟩ := next_of_attempt h
    rw [← hcursor, ← hnext]
    exact Cursor.leads_single b

/-- The attempts of any number of steps lead to where the descent has come. -/
theorem leads_attempts (a : Descent γ) (n : Nat) :
    a.cursor.Leads (a.attempts n) (step^[n] a).cursor := by
  induction n with
  | zero => exact .none _
  | succ n ih =>
    rw [attempts_succ, Function.iterate_succ_apply']
    exact ih.trans (leads_step _)

/-! ## The end of a descent -/

/-- The descent for a routine on a cursor, after so many steps. -/
def run (routine : Routine γ) (c : Cursor) (n : Nat) : Descent γ := step^[n] (start routine c)

theorem run_succ (routine : Routine γ) (c : Cursor) (n : Nat) :
    run routine c (n + 1) = (run routine c n).step :=
  Function.iterate_succ_apply' step n _

theorem run_add (routine : Routine γ) (c : Cursor) (n k : Nat) :
    run routine c (n + k) = step^[k] (run routine c n) := by
  unfold run
  rw [Nat.add_comm, Function.iterate_add_apply]

/-- When no steps are left, the descent has come to its end, and so to the outcome of the reader. -/
theorem run_eq_halted (routine : Routine γ) (c : Cursor) {n top : Nat}
    (h : (start routine c).Within n top) :
    run routine c n = .halted (routine.read c).after (routine.read c).result := by
  have stays : ∀ (c' : Cursor) (result : Except SyntaxError γ) (k : Nat),
      step^[k] (.halted c' result) = .halted c' result :=
    fun _ _ k => Function.iterate_fixed rfl k
  obtain ⟨m, hm⟩ := reaches_halted routine c
  obtain ⟨top', hn, -⟩ := h.iterate n
  rw [Nat.sub_self] at hn
  obtain ⟨c', result, hhalted⟩ := hn.halted_of_zero
  rcases Nat.le_total m n with hle | hle
  · obtain ⟨k, rfl⟩ := Nat.exists_eq_add_of_le hle
    rw [run_add, run, hm, stays]
  · obtain ⟨k, rfl⟩ := Nat.exists_eq_add_of_le hle
    have hsame : run routine c (n + k) = .halted c' result := by
      rw [run_add, run, hhalted, stays]
    rw [run, hhalted, ← hsame]
    exact hm

/-- At its beginning the steps of a descent are those of the routine, and sixteen for each token
that remains. -/
theorem within_start (routine : Routine γ) (c : Cursor) :
    (start routine c).Within (16 * c.remaining + routine.steps) routine.depth := by
  have hfits : (Stack.empty : Stack γ γ).height + routine.depth ≤ routine.depth := by
    simp [Stack.height]
  exact .running routine.depth_le hfits routine.within_code .empty (Nat.le_refl _)

/-- From any step on the calls go no more than four levels down, as long as nothing is eaten. -/
theorem height_run_le (routine : Routine γ) (c : Cursor) {n k : Nat}
    (h : ∀ i < k, (run routine c (n + i)).eaten? = none) :
    (run routine c (n + k)).height ≤ (run routine c n).height + 4 := by
  obtain ⟨top, hn, -⟩ := (within_start routine c).iterate n
  have hraised : (run routine c n).Within _ _ := hn.raise
  obtain ⟨top', hk, htop⟩ := hraised.iterate k
  have hsame : top' = (run routine c n).height + 4 := by
    refine htop fun i hi => ?_
    rw [← run_add]
    exact h i hi
  rw [run_add, ← hsame]
  exact hk.height_le

end Descent

/-! ## Every run of every routine -/

/-- The reader of a routine comes to an end on a cursor that stands where attempts to eat have led
it in a source text. -/
structure Terminates (source : String) (as : List Attempt) (c : Cursor) {α : Type}
    (routine : Routine α) : Prop where
  /-- No more of the text is left than it has when it is trimmed. -/
  finite : c.unread source as ≤ (Text.trim source.toList).length
  /-- The outcome of the reader is there after some steps, at most sixteen for each character that
  is left and fourteen. -/
  halts : ∃ n ≤ 16 * c.unread source as + 14,
    Descent.run routine c n = .halted (routine.read c).after (routine.read c).result
  /-- A token that is eaten is not the end of the input. It is one of those that remained, and less
  of the text is left behind it. -/
  eats : ∀ n t, (Descent.run routine c n).eaten? = some t →
    t.kind ≠ .finish ∧
    (Descent.run routine c (n + 1)).cursor.remaining + 1 =
      (Descent.run routine c n).cursor.remaining ∧
    (Descent.run routine c (n + 1)).cursor.unread source
        (as ++ (Descent.start routine c).attempts (n + 1)) <
      (Descent.run routine c n).cursor.unread source
        (as ++ (Descent.start routine c).attempts n)
  /-- From any step on the calls go no more than four levels down, until a token is eaten. -/
  descends : ∀ n k, (∀ i < k, (Descent.run routine c (n + i)).eaten? = none) →
    (Descent.run routine c (n + k)).height ≤ (Descent.run routine c n).height + 4
  /-- Altogether no more tokens are eaten than the scanner returns before the end of the input. -/
  count : ∃ last line, (∀ i < last, ¬ Scanner.IsEnd ((Scanner.ofSource source).answer i)) ∧
    (Scanner.ofSource source).answer last = .ok (.finish line) ∧
    ∀ n, (eatenBy (as ++ (Descent.start routine c).attempts n)).length ≤
      ((Scanner.ofSource source).returned last).length

namespace Balanced

variable {γ : Type}

/-- The books are balanced after every step of a descent. -/
theorem run (h : Balanced source as c) (routine : Routine γ) (n : Nat) :
    Balanced source (as ++ (Descent.start routine c).attempts n) (Descent.run routine c n).cursor :=
  h.leads ((Descent.start routine c).leads_attempts n)

theorem terminates (h : Balanced source as c) (routine : Routine γ) :
    Terminates source as c routine := by
  refine ⟨h.unread_le, ⟨_, ?_, Descent.run_eq_halted routine c (Descent.within_start routine c)⟩,
    fun n t ht => ?_, fun n k => Descent.height_run_le routine c, ?_⟩
  · have hremaining := h.remaining_le_unread
    have hsteps := routine.steps_le
    omega
  · obtain ⟨b, hb, he⟩ := Option.bind_eq_some_iff.1 ht
    obtain ⟨hcursor, hnext⟩ := Descent.next_of_attempt hb
    have hmade : (Descent.start routine c).attempts (n + 1) =
        (Descent.start routine c).attempts n ++ [b] := by
      rw [Descent.attempts_succ]
      exact congrArg _ (congrArg Option.toList hb)
    have hbefore := h.run routine n
    rw [← hcursor] at hbefore
    rw [hmade, ← List.append_assoc, Descent.run_succ, ← hcursor, ← hnext]
    exact ⟨(Attempt.current_of_eaten he).2, hbefore.remaining_of_eaten he,
      hbefore.unread_lt_of_eaten he⟩
  · obtain ⟨last, -, hbefore, line, hlast⟩ := Scanner.exists_first_isEnd (Scanner.ofSource source)
    exact ⟨last, line, hbefore, hlast, fun n => (h.run routine n).length_eatenBy_le hlast⟩

end Balanced

/-- Reading comes to an end on every source text. If the first token cannot be scanned, nothing is
read at all. Otherwise the routine for programs that nothing follows gives what is read from the
text; and every routine, this one among them, comes to an end on the first cursor, and on every
cursor that any attempts to eat have led to. -/
theorem readers_terminate (source : String) :
    (∀ cause, Cursor.ofSource source = .error cause → Program.ofSource source = .error cause) ∧
    ∀ c₀, Cursor.ofSource source = .ok c₀ →
      (Routine.source.read c₀).result = Program.ofSource source ∧
      ∀ as c, c₀.Leads as c →
        ∀ (α : Type) (routine : Routine α), Terminates source as c routine := by
  refine ⟨fun cause h => ?_, fun c₀ h => ⟨?_, fun as c hleads α routine => ?_⟩⟩
  · rw [Program.ofSource, h]
    rfl
  · rw [Grammar.ofSource_eq_readAll h, ← Program.result_readAlone]
    exact Reading.result_weaken (Nat.le_succ _) _
  · exact ((Balanced.start h).leads hleads).terminates routine

/-- A short program. -/
def brief : String := "PROGRAM p; BEGIN a := (1 + 2) * b END."

theorem readers_terminate_brief :
    ∃ a : Attempt, Cursor.ofSource brief = .ok a.cursor ∧ a.eaten?.isSome ∧
      (Routine.source.read a.cursor).result = Program.ofSource brief ∧
      Terminates brief [] a.cursor .source ∧ Terminates brief [a] a.next .expr := by
  have hfirst : (Cursor.ofSource brief).map (fun c => (c.current.kind, c.ahead.pull.1)) =
      .ok (.keyword .program, .ok ⟨.name, some "p", 1⟩) := by decide +kernel
  cases h₀ : Cursor.ofSource brief with
  | error cause =>
    rw [h₀] at hfirst
    cases hfirst
  | ok c₀ =>
    rw [h₀] at hfirst
    obtain ⟨hkind, hpull⟩ : c₀.current.kind = .keyword .program ∧
        c₀.ahead.pull.1 = .ok ⟨.name, some "p", 1⟩ := Prod.ext_iff.1 (Except.ok.inj hfirst)
    let a : Attempt := ⟨c₀, .keyword .program, Kind.keyword_ne_finish .program⟩
    have houtcome : a.outcome = .done _ _ _ :=
      Cursor.eat_of_pull_ok a.solid hkind (Prod.ext hpull rfl)
    have heaten : a.eaten?.isSome := by simp [Attempt.eaten?, houtcome, Except.toOption]
    obtain ⟨hresult, hall⟩ := (readers_terminate brief).2 c₀ h₀
    exact ⟨a, rfl, heaten, hresult, hall [] c₀ (.none c₀) Program .source,
      hall [a] a.next (Cursor.leads_single a) Expr .expr⟩

end PocketPascal
