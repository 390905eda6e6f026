import PocketPascal.Evaluation

/-!
# Programs as lists of assignments

Compound statements only group, so what a body does depends on its assignments alone, in the order
in which they are written. `Assignment.run` makes them one after another on a store of variables and
stops at the first one whose expression fails. The main statement is that an execution of a program
ends as the run of its assignments does, and leaves the same variables.
-/

namespace PocketPascal

/-- An assignment as it is written. -/
structure Assignment where
  /-- The variable. -/
  target : Name
  /-- The expression. -/
  value : Expr
  /-- The line of the assignment sign. -/
  line : Nat

mutual

/-- The assignments of a statement, in source order. -/
def Statement.assignments : Statement → List Assignment
  | .compound body => Statement.assignmentsOfList body
  | .assign target value line => [⟨target, value, line⟩]
  | .empty => []

/-- The assignments of statements, in source order. -/
def Statement.assignmentsOfList : List Statement → List Assignment
  | [] => []
  | first :: more => first.assignments ++ Statement.assignmentsOfList more

end

/-- The assignments of the outermost body of a program. Those of its procedures are left out. -/
def Program.assignments (p : Program) : List Assignment :=
  Statement.assignmentsOfList p.block.body

/-- How an execution ends, with or without an error, and the variables that it leaves. -/
abbrev Outcome := Except RuntimeError Unit × Globals

/-- The outcome of an execution on a machine. -/
def Execution.outcome (x : Execution) (m : Machine) : Outcome :=
  match x m with
  | .ok _ m' => (.ok (), m'.globals)
  | .error cause m' => (.error cause, m'.globals)

/-- Makes assignments one after another, up to the first one whose expression fails. -/
def Assignment.run (globals : Globals) : List Assignment → Outcome
  | [] => (.ok (), globals)
  | a :: more =>
      match a.value.eval globals with
      | .ok value => Assignment.run (globals.insert a.target.text value) more
      | .error cause => (.error cause, globals)

namespace Assignment

variable {globals globals' : Globals} {as bs : List Assignment} {cause : RuntimeError}

/-- The assignments after a run that ended well go on with the variables that it has left. -/
theorem run_append (h : run globals as = (.ok (), globals')) :
    run globals (as ++ bs) = run globals' bs := by
  induction as generalizing globals with
  | nil =>
    cases h
    rfl
  | cons a more ih =>
    rw [List.cons_append, run]
    rw [run] at h
    cases hv : a.value.eval globals with
    | ok value =>
      rw [hv] at h
      exact ih h
    | error cause =>
      rw [hv] at h
      cases h

/-- The assignments after a run that failed are not made. -/
theorem run_append_of_error (h : run globals as = (.error cause, globals')) :
    run globals (as ++ bs) = (.error cause, globals') := by
  induction as generalizing globals with
  | nil => cases h
  | cons a more ih =>
    rw [List.cons_append, run]
    rw [run] at h
    cases hv : a.value.eval globals with
    | ok value =>
      rw [hv] at h
      exact ih h
    | error cause' =>
      rw [hv] at h
      exact h

/-- A run that fails has made the assignments before the one that fails. -/
theorem exists_of_run_error (h : run globals as = (.error cause, globals')) :
    ∃ before a after, as = before ++ a :: after ∧ run globals before = (.ok (), globals') ∧
      a.value.eval globals' = .error cause := by
  induction as generalizing globals with
  | nil => cases h
  | cons a more ih =>
    rw [run] at h
    cases hv : a.value.eval globals with
    | ok value =>
      rw [hv] at h
      obtain ⟨before, b, after, rfl, hbefore, hb⟩ := ih h
      refine ⟨a :: before, b, after, rfl, ?_, hb⟩
      rw [run, hv]
      exact hbefore
    | error cause' =>
      rw [hv] at h
      cases h
      exact ⟨[], a, more, rfl, rfl, hv⟩

end Assignment

/-! ## Executions -/

namespace Execution

/-- An execution that ends as a run of some assignments does. -/
def Runs (x : Execution) (as : List Assignment) : Prop :=
  ∀ m, outcome x m = Assignment.run m.globals as

/-- Two executions, one after the other, are a run of the assignments of both. -/
theorem Runs.append {x y : Execution} {as bs : List Assignment} (hx : Runs x as) (hy : Runs y bs) :
    Runs (x >>= fun _ => y) (as ++ bs) := by
  intro m
  have hfirst := hx m
  show outcome (EStateM.bind x fun _ => y) m = _
  unfold outcome at hfirst
  cases hm : x m with
  | ok _ m' =>
    rw [hm] at hfirst
    rw [Assignment.run_append hfirst.symm, ← hy m']
    simp only [outcome, EStateM.bind, hm]
  | error cause m' =>
    rw [hm] at hfirst
    rw [Assignment.run_append_of_error hfirst.symm]
    simp only [outcome, EStateM.bind, hm]

theorem runs_assign (target : Name) (value : Expr) (line : Nat) :
    Runs (Statement.assign target value line).execute [⟨target, value, line⟩] := by
  intro m
  rw [Statement.execute, Assignment.run]
  -- the expression is evaluated on the machine as it stands before the assignment
  show outcome (fun m' => (match value.eval m.globals with
    | .ok result => modify fun m => m.write ⟨line, target.text, result⟩
    | .error cause => throw cause : Execution) m') m = _
  cases hv : value.eval m.globals with
  | ok result => rfl
  | error cause => rfl

mutual

theorem runs_execute (s : Statement) : Runs s.execute s.assignments := by
  cases s with
  | compound body =>
    rw [Statement.execute, Statement.assignments]
    exact runs_executeAll body
  | assign target value line =>
    rw [Statement.assignments]
    exact runs_assign target value line
  | empty =>
    rw [Statement.execute, Statement.assignments]
    intro m
    rfl

theorem runs_executeAll (body : List Statement) :
    Runs (Statement.executeAll body) (Statement.assignmentsOfList body) := by
  cases body with
  | nil =>
    rw [Statement.executeAll, Statement.assignmentsOfList]
    intro m
    rfl
  | cons first more =>
    rw [Statement.executeAll, Statement.assignmentsOfList]
    exact (runs_execute first).append (runs_executeAll more)

end

/-- An execution of a program ends as the run of its assignments does, with the same variables. -/
theorem outcome_execute (p : Program) (m : Machine) :
    outcome p.execute m = Assignment.run m.globals p.assignments :=
  runs_executeAll p.block.body m

end Execution

end PocketPascal
