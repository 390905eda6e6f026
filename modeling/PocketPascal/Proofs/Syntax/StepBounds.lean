import PocketPascal.Proofs.Syntax.Descent
import PocketPascal.Proofs.Token.Attempts

/-!
# How many steps the readers make

Before a routine eats anything it can only call routines lower down, so it makes a few steps and
its calls go a few levels down. After it has eaten a token, the same is true of what is left of its
code.
`Within` bounds both: the steps that are left, with sixteen for each token that remains, and the
height of the stack until the next token is eaten. Every step takes one of the steps away and keeps
the height within its bound, unless it eats; so the descent comes to an end, and between two tokens
the stack grows by no more than four.
-/

namespace PocketPascal

variable {α β γ : Type} {n m d top : Nat}

/-! ## Bounds for the code -/

/-- How many steps a routine makes at most until it eats, if it returns by then. -/
def Routine.steps : {α : Type} → Routine α → Nat
  | _, .name | _, .literal _ _ | _, .compound | _, .procedure | _, .program => 1
  | _, .sum _ | _, .product _ | _, .type | _, .variableSection | _, .parameterList => 2
  | _, .assignment => 3
  | _, .factor | _, .names | _, .procedures | _, .source => 4
  | _, .statement | _, .group => 6
  | _, .variableGroups => 8
  | _, .term | _, .statements | _, .parameterGroups => 9
  | _, .block => 11
  | _, .expr => 14

/-- How many levels the calls of a routine go down at most until it eats. -/
def Routine.depth : {α : Type} → Routine α → Nat
  | _, .name | _, .literal _ _ | _, .sum _ | _, .product _ | _, .compound | _, .type
  | _, .variableSection | _, .parameterList | _, .procedure | _, .program => 0
  | _, .factor | _, .assignment | _, .names | _, .procedures | _, .source => 1
  | _, .term | _, .statement | _, .group | _, .block => 2
  | _, .expr | _, .statements | _, .parameterGroups | _, .variableGroups => 3

theorem Routine.steps_le (routine : Routine α) : routine.steps ≤ 14 := by
  cases routine <;> simp [Routine.steps]

theorem Routine.depth_le (routine : Routine α) : routine.depth ≤ 4 := by
  cases routine <;> simp [Routine.depth]

/-- Until it eats, the code makes at most `n` steps, with those of the routines that it calls, and
its calls go at most `d` levels down. Behind every token it makes at most sixteen steps until it
eats again, and its calls go at most four levels down. -/
def Code.Within : Nat → Nat → Code α → Prop
  | n, _, .give _ => 0 < n
  | n, _, .object _ => 0 < n
  | n, d, .look next => 0 < n ∧ ∀ t, (next t).Within (n - 1) d
  | n, _, .eat _ _ next => 0 < n ∧ ∀ t, (next t).Within 16 4
  | n, d, .call routine next =>
      routine.steps < n ∧ routine.depth < d ∧ ∀ value, (next value).Within (n - 1 - routine.steps) d

theorem Code.Within.pos {code : Code α} (h : code.Within n d) : 0 < n := by
  cases code with
  | give value => exact h
  | object cause => exact h
  | look next => exact h.1
  | eat kind solid next => exact h.1
  | call routine next => exact Nat.zero_lt_of_lt h.1

theorem Code.within_ifAt {yes no : Code α} {kind : Kind} :
    (ifAt kind yes no).Within n d ↔ 0 < n ∧ yes.Within (n - 1) d ∧ no.Within (n - 1) d := by
  constructor
  · rintro ⟨hn, h⟩
    obtain ⟨other, hother⟩ : ∃ other : Kind, other ≠ kind := by
      by_cases hk : kind = .name
      · exact ⟨.finish, by simp [hk]⟩
      · exact ⟨.name, Ne.symm hk⟩
    have hyes := h ⟨kind, none, 0⟩
    have hno := h ⟨other, none, 0⟩
    simp only [if_true, if_neg hother] at hyes hno
    exact ⟨hn, hyes, hno⟩
  · rintro ⟨hn, hyes, hno⟩
    refine ⟨hn, fun t => ?_⟩
    by_cases hk : t.kind = kind
    · simpa [hk] using hyes
    · simpa [hk] using hno

/-- The code of every routine keeps to its bounds. -/
theorem Routine.within_code (routine : Routine α) :
    routine.code.Within routine.steps routine.depth := by
  cases routine
  -- these go on in a way that depends on the token
  case literal kind solid =>
    refine ⟨Nat.one_pos, fun t => ?_⟩
    dsimp only
    cases t.value? <;> simp [Code.Within]
  case sum left =>
    refine ⟨Nat.two_pos, fun t => ?_⟩
    dsimp only
    cases BinaryOperator.ofSumKind? t.kind <;> simp [Code.Within, steps, depth]
  case product left =>
    refine ⟨Nat.two_pos, fun t => ?_⟩
    dsimp only
    cases BinaryOperator.ofProductKind? t.kind <;> simp [Code.Within, steps, depth]
  case factor =>
    refine ⟨by decide, fun t => ?_⟩
    dsimp only
    cases UnaryOperator.ofKind? t.kind with
    | some op => simp [Code.Within, steps, depth]
    | none =>
      dsimp only
      split <;> simp [Code.Within, Code.eatMark, steps, depth]
  case statement =>
    refine ⟨by decide, fun t => ?_⟩
    dsimp only
    split <;> simp [Code.Within, steps, depth]
  case type =>
    refine ⟨Nat.two_pos, fun t => ?_⟩
    dsimp only
    split <;> simp [Code.Within, steps]
  case source =>
    refine ⟨by decide, by decide, fun program => ⟨Nat.two_pos, fun t => ?_⟩⟩
    by_cases hk : t.kind = .finish <;> simp [hk, Code.Within, steps]
  all_goals
    simp [code, steps, depth, Code.Within, Code.within_ifAt, Code.eatMark, Code.eatKeyword]

/-! ## Bounds for the stack -/

/-- How many callers there are. -/
def Stack.height : {α : Type} → Stack γ α → Nat
  | _, .empty => 0
  | _, .push _ rest => rest.height + 1

/-- The callers go on with at most `n` steps until each of them eats, and their calls do not make
the stack higher than `top` until then. -/
inductive Stack.Within : {α : Type} → Stack γ α → Nat → Nat → Prop where
  /-- There is no caller. -/
  | empty {top : Nat} : Within .empty 0 top
  /-- The innermost caller, and the others. -/
  | push {α β : Type} {next : α → Code β} {rest : Stack γ β} {m n d top : Nat} (shallow : d ≤ 4)
      (fits : rest.height + d ≤ top) (caller : ∀ value, (next value).Within m d)
      (others : rest.Within n top) : Within (.push next rest) (m + n) top

/-- Four levels above the stack are enough for the calls of all callers. -/
theorem Stack.Within.raise {stack : Stack γ α} (h : stack.Within n top) {top' : Nat}
    (hle : stack.height + 4 ≤ top') : stack.Within n top' := by
  induction h with
  | empty => exact .empty
  | push shallow _ caller _ ih =>
    simp only [height] at hle
    exact .push shallow (by omega) caller (ih (by omega))

/-! ## Bounds for descents -/

namespace Descent

/-- How many callers there are; none at the end. -/
def height : Descent γ → Nat
  | .running _ _ stack => stack.height
  | .halted _ _ => 0

/-- The cursor of the descent. -/
def cursor : Descent γ → Cursor
  | .running c _ _ => c
  | .halted c _ => c

/-- The attempt to eat that the next step makes, if it makes one. -/
def attempt? : Descent γ → Option Attempt
  | .running c (.eat kind solid _) _ => some ⟨c, kind, solid⟩
  | _ => none

/-- The token that the next step eats, if it eats one. -/
def eaten? (a : Descent γ) : Option Token := a.attempt?.bind Attempt.eaten?

/-- At most `n` steps are left, and the stack is not higher than `top` until a token is eaten. -/
inductive Within : Descent γ → Nat → Nat → Prop where
  /-- The steps of the code and of the callers, and sixteen more for each token that remains. -/
  | running {α : Type} {c : Cursor} {code : Code α} {stack : Stack γ α} {m k d n top : Nat}
      (shallow : d ≤ 4) (fits : stack.height + d ≤ top) (own : code.Within m d)
      (callers : stack.Within k top) (left : 16 * c.remaining + m + k ≤ n) :
      Within (.running c code stack) n top
  /-- The end. -/
  | halted {c : Cursor} {result : Except SyntaxError γ} {n top : Nat} :
      Within (.halted c result) n top

variable {a : Descent γ}

theorem Within.height_le (h : a.Within n top) : a.height ≤ top := by
  cases h with
  | running _ fits _ _ _ => exact Nat.le_trans (Nat.le_add_right _ _) fits
  | halted => exact Nat.zero_le _

/-- From any state on, four more levels are enough until a token is eaten. -/
theorem Within.raise (h : a.Within n top) : a.Within n (a.height + 4) := by
  cases h with
  | running shallow _ own callers left =>
    exact .running shallow (Nat.add_le_add_left shallow _) own (callers.raise (Nat.le_refl _)) left
  | halted => exact .halted

/-- No steps are left only at the end. -/
theorem Within.halted_of_zero (h : a.Within 0 top) : ∃ c result, a = .halted c result := by
  cases h with
  | running _ _ own _ left =>
    have hpos := own.pos
    omega
  | halted => exact ⟨_, _, rfl⟩

/-- A step takes one of the steps away. It keeps the bound for the stack, unless it eats a token. -/
theorem Within.step (h : a.Within n top) :
    ∃ top', a.step.Within (n - 1) top' ∧ (a.eaten? = none → top' = top) := by
  cases h with
  | halted => exact ⟨top, .halted, fun _ => rfl⟩
  | @running _ c code stack m k d _ _ shallow fits own callers left =>
    cases code with
    | give value =>
      have hpos : 0 < m := own
      cases callers with
      | empty => exact ⟨top, .halted, fun _ => rfl⟩
      | push shallow' fits' caller others =>
        exact ⟨top, .running shallow' fits' (caller value) others (by omega), fun _ => rfl⟩
    | object cause => exact ⟨top, .halted, fun _ => rfl⟩
    | look next =>
      have hpos : 0 < m := own.1
      exact ⟨top, .running shallow fits (own.2 c.current) callers (by omega), fun _ => rfl⟩
    | call routine next =>
      obtain ⟨hsteps, hdepth, hnext⟩ := own
      have hpush : (Stack.push next stack).Within (m - 1 - routine.steps + k) top :=
        .push shallow fits hnext callers
      refine ⟨top, .running (by omega) ?_ routine.within_code hpush (by omega), fun _ => rfl⟩
      simp only [Stack.height]
      omega
    | eat kind solid next =>
      have hpos : 0 < m := own.1
      cases heat : c.eat kind solid with
      | failed cause c' =>
        rw [step_eat_of_failed heat]
        exact ⟨top, .halted, fun _ => rfl⟩
      | done t c' lt =>
        -- the token pays for the code behind it
        rw [step_eat_of_done heat]
        refine ⟨stack.height + 4, .running (Nat.le_refl 4) (Nat.le_refl _) (own.2 t)
          (callers.raise (Nat.le_refl _)) (by omega), fun hnone => ?_⟩
        have heaten : (Descent.running c (.eat kind solid next) stack).eaten? = some t := by
          simp [eaten?, attempt?, Attempt.eaten?, Attempt.outcome, heat, Except.toOption]
        rw [heaten] at hnone
        cases hnone

/-- Any number of steps take as many of the steps away, and keep the bound for the stack as long as
no token is eaten. -/
theorem Within.iterate (h : a.Within n top) (k : Nat) :
    ∃ top', (Descent.step^[k] a).Within (n - k) top' ∧
      ((∀ i < k, (Descent.step^[i] a).eaten? = none) → top' = top) := by
  induction k with
  | zero => exact ⟨top, h, fun _ => rfl⟩
  | succ k ih =>
    obtain ⟨top', hk, htop⟩ := ih
    obtain ⟨top'', hstep, htop'⟩ := hk.step
    rw [Function.iterate_succ_apply']
    refine ⟨top'', by rwa [← Nat.sub_sub], fun hnone => ?_⟩
    rw [htop' (hnone k (Nat.lt_succ_self k)), htop fun i hi => hnone i (Nat.lt_succ_of_lt hi)]

end Descent

end PocketPascal
