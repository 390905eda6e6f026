import PocketPascal.Proofs.Evaluation.Assignments

/-!
# Assignments as steps

An assignment is a step from some variables to others: it evaluates its expression on the variables
as they are, and then stores the value. If the expression has no value, there is no step, and the
variables stay as they are. The main statement is that an execution of a program folds the steps of
its assignments, whatever is declared around them, and that an error leaves the variables at the last
step before it.
-/

namespace PocketPascal

/-- The variables after an assignment, or the error of its expression. -/
def Assignment.step (globals : Globals) (a : Assignment) : Except RuntimeError Globals := do
  let value ← a.value.eval globals
  return globals.insert a.target.text value

namespace Assignment

variable {globals globals' : Globals} {a : Assignment} {as before after : List Assignment}
  {cause : RuntimeError}

theorem step_of_ok {value : Value} (h : a.value.eval globals = .ok value) :
    a.step globals = .ok (globals.insert a.target.text value) := by
  rw [step, h]
  rfl

theorem step_of_error (h : a.value.eval globals = .error cause) :
    a.step globals = .error cause := by
  rw [step, h]
  rfl

/-- A step leaves every variable but its target as it is. -/
theorem getElem?_of_step (h : a.step globals = .ok globals') {x : String}
    (hx : a.target.text ≠ x) : globals'[x]? = globals[x]? := by
  cases hv : a.value.eval globals with
  | ok value =>
    rw [step_of_ok hv] at h
    cases h
    rw [Std.ExtTreeMap.getElem?_insert, if_neg]
    rwa [Std.compare_eq_iff_eq]
  | error cause =>
    rw [step_of_error hv] at h
    cases h

/-- Steps leave every variable as it is that none of them assigns. -/
theorem getElem?_of_steps (h : as.foldlM step globals = .ok globals') {x : String}
    (hx : ∀ a ∈ as, a.target.text ≠ x) : globals'[x]? = globals[x]? := by
  induction as generalizing globals with
  | nil =>
    cases h
    rfl
  | cons a more ih =>
    rw [List.foldlM_cons] at h
    cases hstep : a.step globals with
    | ok between =>
      rw [hstep] at h
      rw [ih h fun b hb => hx b (List.mem_cons_of_mem a hb)]
      exact getElem?_of_step hstep (hx a List.mem_cons_self)
    | error cause =>
      rw [hstep] at h
      cases h

/-! ## Runs as folds -/

/-- A run ends well exactly if all its steps can be made, and it leaves what they lead to. -/
theorem run_eq_ok_iff :
    run globals as = (.ok (), globals') ↔ as.foldlM step globals = .ok globals' := by
  induction as generalizing globals with
  | nil => simp [run, pure, Except.pure]
  | cons a more ih =>
    rw [run, List.foldlM_cons]
    cases hv : a.value.eval globals with
    | ok value =>
      rw [step_of_ok hv]
      exact ih
    | error cause =>
      rw [step_of_error hv]
      constructor
      · intro h
        cases h
      · intro h
        cases h

/-- A run fails exactly if a step cannot be made after those before it, and it leaves what they lead
to. -/
theorem run_eq_error_iff :
    run globals as = (.error cause, globals') ↔
      ∃ before a after, as = before ++ a :: after ∧ before.foldlM step globals = .ok globals' ∧
        a.value.eval globals' = .error cause := by
  constructor
  · intro h
    obtain ⟨before, a, after, hsplit, hbefore, ha⟩ := exists_of_run_error h
    exact ⟨before, a, after, hsplit, run_eq_ok_iff.1 hbefore, ha⟩
  · rintro ⟨before, a, after, rfl, hbefore, ha⟩
    rw [run_append (run_eq_ok_iff.2 hbefore), run, ha]

end Assignment

open Execution

/-- An execution of a program makes the steps of its assignments, one after another. It ends well
exactly if all of them can be made, with the variables that they lead to. It ends with an error
exactly if that is the error of the first one that cannot be made; the variables are then those that
the steps before it lead to, and what none of these has assigned is as it was at the beginning. What
is declared makes no difference. -/
theorem Program.outcome_eq_steps (p : Program) (m : Machine) :
    (∀ globals, outcome p.execute m = (.ok (), globals) ↔
      p.assignments.foldlM Assignment.step m.globals = .ok globals) ∧
    (∀ cause globals, outcome p.execute m = (.error cause, globals) ↔
      ∃ before a after, p.assignments = before ++ a :: after ∧
        before.foldlM Assignment.step m.globals = .ok globals ∧
        a.value.eval globals = .error cause ∧
        ∀ x, (∀ b ∈ before, b.target.text ≠ x) → globals[x]? = m.globals[x]?) ∧
    ∀ name declarations,
      (⟨name, declarations, p.block.body⟩ : Program).execute m = p.execute m := by
  refine ⟨fun globals => ?_, fun cause globals => ?_, fun name declarations => rfl⟩
  · rw [outcome_execute]
    exact Assignment.run_eq_ok_iff
  · rw [outcome_execute, Assignment.run_eq_error_iff]
    constructor
    · rintro ⟨before, a, after, hsplit, hbefore, ha⟩
      exact ⟨before, a, after, hsplit, hbefore, ha, fun x hx => Assignment.getElem?_of_steps hbefore hx⟩
    · rintro ⟨before, a, after, hsplit, hbefore, ha, -⟩
      exact ⟨before, a, after, hsplit, hbefore, ha⟩

end PocketPascal
