import PocketPascal.Proofs.Evaluation.Assignments

/-!
# Runs from other variables

A program reads a variable only after it has assigned it, or else fails at once. So the variables
that are there before a run make no difference to it: every value that a run from nothing reads is
one that it has written before. The main statement compares a run from nothing with runs from the
variables it has left itself, and from any others.
-/

namespace PocketPascal

namespace Globals

theorem union_self (g : Globals) : g ∪ g = g := by
  refine Std.ExtTreeMap.ext_getElem? fun x => ?_
  rw [Std.ExtTreeMap.getElem?_union, Option.or_self]

theorem union_empty (c : Globals) : c ∪ ∅ = c := by
  refine Std.ExtTreeMap.ext_getElem? fun x => ?_
  rw [Std.ExtTreeMap.getElem?_union, Std.ExtTreeMap.getElem?_empty, Option.none_or]

/-- A new value lies over the old variables, wherever it is put. -/
theorem union_insert (c g : Globals) (x : String) (value : Value) :
    (c ∪ g).insert x value = c ∪ g.insert x value := by
  refine Std.ExtTreeMap.ext_getElem? fun y => ?_
  rw [Std.ExtTreeMap.getElem?_union, Std.ExtTreeMap.getElem?_insert,
    Std.ExtTreeMap.getElem?_insert, Std.ExtTreeMap.getElem?_union]
  split
  · rw [Option.some_or]
  · rfl

end Globals

/-- The error is that a variable has not been assigned. -/
def RuntimeError.IsUnassigned (cause : RuntimeError) : Prop :=
  ∃ name line, cause = .unassigned name line

/-- An evaluation that finds all its variables finds the same ones if there are others below them.
-/
theorem Expr.eval_union (c g : Globals) (e : Expr)
    (h : ∀ cause, e.eval g = .error cause → ¬ cause.IsUnassigned) : e.eval (c ∪ g) = e.eval g := by
  induction e with
  | literal value line => rfl
  | «variable» name =>
    rw [eval, eval, Std.ExtTreeMap.getElem?_union]
    cases hx : g[name.text]? with
    | some value => rfl
    | none =>
      rw [eval, hx] at h
      exact absurd ⟨_, _, rfl⟩ (h _ rfl)
  | unary op operand line ih =>
    have hoperand : operand.eval (c ∪ g) = operand.eval g := by
      refine ih fun cause he => h cause ?_
      rw [eval, he]
      rfl
    rw [eval, eval, hoperand]
  | binary op left right line ihl ihr =>
    have hleft : left.eval (c ∪ g) = left.eval g := by
      refine ihl fun cause he => h cause ?_
      rw [eval, he]
      rfl
    rw [eval, eval, hleft]
    cases hl : left.eval g with
    | error cause => rfl
    | ok a =>
      have hright : right.eval (c ∪ g) = right.eval g := by
        refine ihr fun cause he => h cause ?_
        rw [eval, hl, he]
        rfl
      rw [hright]

namespace Assignment

/-- A run from more variables ends in the same way, and leaves the others as they are: always if it
does not fail for a variable that has not been assigned, and otherwise if it has assigned all of
those others itself. -/
theorem run_union {c g g' : Globals} {as : List Assignment} {result : Except RuntimeError Unit}
    (h : run g as = (result, g'))
    (hc : (∀ cause, result = .error cause → ¬ cause.IsUnassigned) ∨ c ∪ g' = g') :
    run (c ∪ g) as = (result, c ∪ g') := by
  induction as generalizing g with
  | nil =>
    cases h
    rfl
  | cons a more ih =>
    rw [run] at h ⊢
    cases hv : a.value.eval g with
    | ok value =>
      rw [hv] at h
      have hunion : a.value.eval (c ∪ g) = .ok value := by
        rw [Expr.eval_union c g a.value, hv]
        intro cause he
        rw [hv] at he
        cases he
      rw [hunion]
      show run ((c ∪ g).insert a.target.text value) more = _
      rw [Globals.union_insert]
      exact ih h
    | error cause =>
      rw [hv] at h
      cases h
      -- nothing is written any more, so `g'` is what the failing assignment has seen
      have hunion : a.value.eval (c ∪ g') = .error cause := by
        rcases hc with hc | hc
        · rw [Expr.eval_union c g' a.value, hv]
          intro cause' he
          rw [hv] at he
          cases he
          exact hc cause rfl
        · rw [hc, hv]
      rw [hunion]

end Assignment

open Execution

/-- A run does not depend on variables from before. On the variables that a run from nothing has
left, with or without an error, a program ends as before and leaves them as they are; and unless it
has failed for a variable that was not assigned, it ends in the same way on any variables, and what
it leaves is those with its own over them. -/
theorem Program.outcome_of_rerun (p : Program) :
    (∀ m : Machine, m.globals = (outcome p.execute .initial).2 →
      outcome p.execute m = outcome p.execute .initial) ∧
    ((outcome p.execute .initial).1 = .ok () ∨
        (∃ fault line, (outcome p.execute .initial).1 = .error (.arithmetic fault line)) →
      ∀ m : Machine, outcome p.execute m =
        ((outcome p.execute .initial).1, m.globals ∪ (outcome p.execute .initial).2)) := by
  have hrun : Assignment.run ∅ p.assignments = outcome p.execute .initial :=
    (outcome_execute p .initial).symm
  generalize outcome p.execute .initial = first at hrun
  obtain ⟨result, g⟩ := first
  constructor
  · rintro m rfl
    have hself := Assignment.run_union hrun (.inr (Globals.union_self m.globals))
    rw [Globals.union_empty, Globals.union_self] at hself
    rw [outcome_execute, hself]
  · intro hresult m
    have hunion := Assignment.run_union (c := m.globals) hrun (.inl ?_)
    · rw [Globals.union_empty] at hunion
      rw [outcome_execute, hunion]
    · rintro cause he ⟨name, line, rfl⟩
      rcases hresult with hok | ⟨fault, line', herror⟩
      · rw [he] at hok
        cases hok
      · rw [he] at herror
        cases herror

/-- A program that assigns a variable twice, the second time from itself, and then divides by zero.
-/
def failingDivision : Program :=
  let a (line : Nat) : Expr := .variable ⟨"a", line⟩
  ⟨"p", [], [.assign ⟨"a", 1⟩ (.literal (.integer 1) 1) 1,
    .compound [.assign ⟨"a", 2⟩ (.binary .add (a 2) (a 2) 2) 2, .empty],
    .assign ⟨"b", 3⟩ (.binary .div (a 3) (.literal (.integer 0) 3) 3) 3]⟩

/-- The division fails in the same way on the variables that the failure has left and on others, and
the value of the variable from before does not matter. -/
theorem outcome_of_rerun_failingDivision :
    (outcome failingDivision.execute .initial).1 = .error (.arithmetic .divisionByZero 3) ∧
    (outcome failingDivision.execute .initial).2["a"]? = some (.integer 2) ∧
    outcome failingDivision.execute ⟨(outcome failingDivision.execute .initial).2, #[]⟩ =
      outcome failingDivision.execute .initial ∧
    outcome failingDivision.execute ⟨(∅ : Globals).insert "a" (.integer 7), #[]⟩ =
      (.error (.arithmetic .divisionByZero 3),
        (∅ : Globals).insert "a" (.integer 7) ∪ (outcome failingDivision.execute .initial).2) := by
  have hfirst : (outcome failingDivision.execute .initial).1 =
      .error (.arithmetic .divisionByZero 3) := rfl
  have hvalue : (outcome failingDivision.execute .initial).2["a"]? = some (.integer 2) := by
    decide +kernel
  obtain ⟨hself, hother⟩ := failingDivision.outcome_of_rerun
  refine ⟨hfirst, hvalue, hself _ rfl, ?_⟩
  rw [← hfirst]
  exact hother (.inr ⟨_, _, hfirst⟩) _

end PocketPascal
