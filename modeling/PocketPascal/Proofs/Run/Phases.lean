import PocketPascal.Proofs.Evaluation.Assignments
import PocketPascal.Proofs.Scope.Refinement
import PocketPascal.Run

/-!
# Runs as a sequence of phases

The result of a run without its log: the program is read, its names are checked by the rules of
scoping if that is asked for, and its assignments are made on no variables. The first error is the
error of the run.
-/

namespace PocketPascal

/-- An outcome that is known to be an error up to its value. -/
theorem eq_error_of_map {ε α : Type} {outcome : Except ε α} {cause : ε}
    (h : outcome.map (fun _ => ()) = .error cause) : outcome = .error cause := by
  cases outcome with
  | ok _ => cases h
  | error _ =>
    cases h
    rfl

/-- The variables of an execution that has ended well. -/
def Outcome.result : Outcome → Except RuntimeError Globals
  | (.ok _, globals) => .ok globals
  | (.error cause, _) => .error cause

/-- The result of a program that has been read. -/
def Program.result (options : Options) (p : Program) : Except Error Globals := do
  if options.analyze then (Scoping.check options.policy p).1.mapError .scope
  (Outcome.result (Assignment.run ∅ p.assignments)).mapError .runtime

/-- An error of a program that has been read is one of its analysis, or, if there is none, one of its
assignments. -/
theorem Program.error_of_result {options : Options} {p : Program} {e : Error}
    (h : p.result options = .error e) :
    (∃ cause, (Scoping.check options.policy p).1 = .error cause ∧ e = .scope cause) ∨
      ∃ cause globals, (options.analyze → (Scoping.check options.policy p).1 = .ok ()) ∧
        Assignment.run ∅ p.assignments = (.error cause, globals) ∧ e = .runtime cause := by
  have hevaluation : (Outcome.result (Assignment.run ∅ p.assignments)).mapError Error.runtime =
        .error e → ∃ cause globals, Assignment.run ∅ p.assignments = (.error cause, globals) ∧
          e = .runtime cause := by
    intro he
    generalize Assignment.run ∅ p.assignments = outcome at he ⊢
    obtain ⟨cause | _, globals⟩ := outcome
    · cases he
      exact ⟨cause, globals, rfl, rfl⟩
    · cases he
  rw [result] at h
  split at h
  · cases hc : (Scoping.check options.policy p).1 with
    | error cause =>
      rw [hc] at h
      cases h
      exact .inl ⟨cause, rfl, rfl⟩
    | ok _ =>
      rw [hc] at h
      obtain ⟨cause, globals, hrun, he⟩ := hevaluation h
      exact .inr ⟨cause, globals, fun _ => rfl, hrun, he⟩
  · rename_i hanalyze
    obtain ⟨cause, globals, hrun, he⟩ := hevaluation h
    exact .inr ⟨cause, globals, fun h => absurd h hanalyze, hrun, he⟩

theorem Outcome.eq_of_result {outcome : Outcome} {globals : Globals}
    (h : (Outcome.result outcome).mapError Error.runtime = .ok globals) :
    outcome = (.ok (), globals) := by
  obtain ⟨_ | _, globals'⟩ := outcome
  · cases h
  · cases h
    rfl

/-- The result of a program that has been read is that of its assignments. -/
theorem Program.run_of_result {options : Options} {p : Program} {globals : Globals}
    (h : p.result options = .ok globals) :
    Assignment.run ∅ p.assignments = (.ok (), globals) := by
  rw [result] at h
  split at h
  · cases hc : (Scoping.check options.policy p).1 with
    | error cause =>
      rw [hc] at h
      cases h
    | ok _ =>
      rw [hc] at h
      exact Outcome.eq_of_result h
  · exact Outcome.eq_of_result h

theorem Analyzer.fst_analyze_create (policy : Policy) (p : Program) :
    ((create policy).analyze p).1 = (Scoping.check policy p).1 :=
  congrArg Prod.fst ((create policy).found_eq_check p)

namespace Run

theorem result_bind {α β : Type} (r : Run α) (next : α → Run β) :
    (r.bind next).result = r.result.bind fun a => (next a).result := by
  unfold bind
  cases r.result with
  | ok a => rfl
  | error e => rfl

theorem result_parse (source : String) :
    (parse source).result = (Program.ofSource source).mapError .ofSyntax := by
  unfold parse
  cases Program.ofSource source with
  | ok p => rfl
  | error cause => rfl

theorem result_analyze (policy : Policy) (p : Program) :
    (analyze policy p).result = (Scoping.check policy p).1.mapError .scope := by
  rw [← Analyzer.fst_analyze_create]
  rfl

theorem result_evaluate (p : Program) :
    (evaluate p).result = (Outcome.result (Assignment.run ∅ p.assignments)).mapError .runtime := by
  have houtcome := Execution.outcome_execute p .initial
  rw [Machine.initial] at houtcome
  rw [← houtcome]
  unfold evaluate Execution.outcome
  rw [Machine.initial]
  cases p.execute ⟨∅, #[]⟩ with
  | ok _ m => rfl
  | error cause m => rfl

/-- The result of a run is that of its program, or the error of reading it. -/
theorem result_ofSource (options : Options) (source : String) :
    (ofSource options source).result =
      ((Program.ofSource source).mapError .ofSyntax).bind (Program.result options) := by
  rw [ofSource, result_bind, result_parse]
  congr 1
  funext p
  rw [Program.result]
  split
  · rw [result_bind, result_analyze, result_evaluate]
    rfl
  · rw [result_evaluate]

/-- A run that ends well has read a program and made its assignments. -/
theorem run_of_ofSource {options : Options} {source : String} {globals : Globals}
    (h : (ofSource options source).result = .ok globals) :
    ∃ p, Program.ofSource source = .ok p ∧
      Assignment.run ∅ p.assignments = (.ok (), globals) := by
  rw [result_ofSource] at h
  cases hp : Program.ofSource source with
  | error cause =>
    rw [hp] at h
    cases h
  | ok p =>
    rw [hp] at h
    exact ⟨p, rfl, Program.run_of_result h⟩

/-- A run ends with an error of reading, or with one of the program that has been read. -/
theorem error_of_ofSource {options : Options} {source : String} {e : Error}
    (h : (ofSource options source).result = .error e) :
    (∃ cause, Program.ofSource source = .error cause ∧ e = .ofSyntax cause) ∨
      ∃ p, Program.ofSource source = .ok p ∧ p.result options = .error e := by
  rw [result_ofSource] at h
  cases hp : Program.ofSource source with
  | error cause =>
    rw [hp] at h
    cases h
    exact .inl ⟨cause, rfl, rfl⟩
  | ok p =>
    rw [hp] at h
    exact .inr ⟨p, rfl, h⟩

end Run

end PocketPascal
