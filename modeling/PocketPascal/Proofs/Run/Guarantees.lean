import PocketPascal.Proofs.Evaluation.Faults
import PocketPascal.Proofs.Run.Phases
import PocketPascal.Proofs.Scope.Visible

/-!
# What the analysis guarantees

The analysis comes between reading and evaluation: a program that passes it uses, outside of its
procedures, only names that are declared outside of its procedures. Evaluation adds that a run which
ends well has assigned each of its variables, and no other one, and that a variable without a value
is one that no assignment before has assigned. Nothing that happens inside of a procedure can be
seen in the result.
-/

namespace PocketPascal

/-- The variables that a program assigns outside of its procedures. -/
def Program.targets (p : Program) : List String := p.assignments.map fun a => a.target.text

/-- After a run that ended well, the variables are those from before and those that were assigned.
-/
theorem Assignment.mem_of_run {globals globals' : Globals} {as : List Assignment} (x : String)
    (h : Assignment.run globals as = (.ok (), globals')) :
    x ∈ globals' ↔ x ∈ as.map (fun a => a.target.text) ∨ x ∈ globals := by
  induction as generalizing globals with
  | nil =>
    cases h
    simp
  | cons a more ih =>
    rw [Assignment.run] at h
    cases hv : a.value.eval globals with
    | ok value =>
      rw [hv] at h
      rw [ih h, Std.ExtTreeMap.mem_insert, List.map_cons, List.mem_cons]
      have heq : compare a.target.text x = .eq ↔ x = a.target.text := by
        rw [Std.LawfulEqCmp.compare_eq_iff_eq, eq_comm]
      rw [heq]
      exact ⟨fun h => by tauto, fun h => by tauto⟩
    | error cause =>
      rw [hv] at h
      cases h

/-! ## Analysed runs -/

/-- A name that an analysed program uses outside of its procedures is declared there: it is no
reserved word, so it does not stand for a built-in type. -/
theorem Program.declared_of_check {source : String} {policy : Policy} {p : Program}
    (hp : Program.ofSource source = .ok p) (hc : (Scoping.check policy p).1 = .ok ()) :
    ∀ a ∈ p.assignments, ∀ n ∈ a.names, n.text ∈ p.declared := by
  intro a ha n hn
  rcases Scoping.declared_of_check hc a ha n hn with hdeclared | htype
  · exact hdeclared
  · have hword := Program.not_reserved hp a ha n hn
    rcases List.mem_cons.1 htype with hinteger | htype
    · exact absurd hinteger (hword .integer)
    · exact absurd (List.mem_singleton.1 htype) (hword .real)

namespace Run

variable {policy : Policy} {source : String}

/-- A run with analysis that ends well has read a program, accepted it and made its assignments. -/
theorem phases_of_ok {globals : Globals}
    (h : (ofSource ⟨policy, true⟩ source).result = .ok globals) :
    ∃ p, Program.ofSource source = .ok p ∧ (Scoping.check policy p).1 = .ok () ∧
      Assignment.run ∅ p.assignments = (.ok (), globals) := by
  rw [result_ofSource] at h
  cases hp : Program.ofSource source with
  | error cause =>
    rw [hp] at h
    cases h
  | ok p =>
    rw [hp] at h
    change p.result ⟨policy, true⟩ = .ok globals at h
    rw [Program.result, if_pos rfl] at h
    cases hc : (Scoping.check policy p).1 with
    | error cause =>
      rw [hc] at h
      cases h
    | ok _ =>
      rw [hc] at h
      exact ⟨p, rfl, hc, Outcome.eq_of_result h⟩

/-- A run with analysis that ends with an error of the evaluation has read a program and accepted
it. -/
theorem phases_of_runtime {cause : RuntimeError}
    (h : (ofSource ⟨policy, true⟩ source).result = .error (.runtime cause)) :
    ∃ p globals, Program.ofSource source = .ok p ∧ (Scoping.check policy p).1 = .ok () ∧
      Assignment.run ∅ p.assignments = (.error cause, globals) := by
  rcases error_of_ofSource h with ⟨cause', -, hcause⟩ | ⟨p, hp, hresult⟩
  · cases cause' <;> cases hcause
  · rcases Program.error_of_result hresult with ⟨_, -, hcause⟩ |
      ⟨cause', globals, hc, hrun, hcause⟩
    · cases hcause
    · cases hcause
      exact ⟨p, globals, hp, hc rfl, hrun⟩

/-- What the analysis guarantees about evaluation, under both policies. If a run ends well, its
variables are exactly those that the program assigns outside of its procedures, and all of them are
declared there. If it fails for a variable without a value, the variable is declared there, too, and
no assignment before the failing one assigns it. -/
theorem guarantees_of_analysis (policy : Policy) (source : String) :
    (∀ globals, (ofSource ⟨policy, true⟩ source).result = .ok globals →
      ∃ p, Program.ofSource source = .ok p ∧ (∀ x, x ∈ globals ↔ x ∈ p.targets) ∧
        ∀ x ∈ globals, x ∈ p.declared) ∧
    (∀ name line,
      (ofSource ⟨policy, true⟩ source).result = .error (.runtime (.unassigned name line)) →
      ∃ p before a after globals, Program.ofSource source = .ok p ∧
        p.assignments = before ++ a :: after ∧ Assignment.run ∅ before = (.ok (), globals) ∧
        a.value.eval globals = .error (.unassigned name line) ∧
        name ∈ p.declared ∧ ∀ b ∈ before, b.target.text ≠ name) := by
  constructor
  · intro globals h
    obtain ⟨p, hp, hc, hr⟩ := phases_of_ok h
    have htargets : ∀ x, x ∈ globals ↔ x ∈ p.targets := by
      intro x
      rw [Assignment.mem_of_run x hr, or_iff_left (by simp), Program.targets]
    refine ⟨p, hp, htargets, fun x hx => ?_⟩
    obtain ⟨a, ha, rfl⟩ := List.mem_map.1 ((htargets x).1 hx)
    exact Program.declared_of_check hp hc a ha a.target List.mem_cons_self
  · intro name line h
    obtain ⟨p, globals, hp, hc, hr⟩ := phases_of_runtime h
    obtain ⟨before, a, after, hsplit, hbefore, ha⟩ := Assignment.exists_of_run_error hr
    obtain ⟨hname, hmissing⟩ := Expr.missing_of_eval ha
    refine ⟨p, before, a, after, globals, hp, hsplit, hbefore, ha, ?_, ?_⟩
    · have hmem : a ∈ p.assignments := by simp [hsplit]
      exact Program.declared_of_check hp hc a hmem _ (List.mem_cons_of_mem _ hname)
    · rintro b hb rfl
      exact hmissing ((Assignment.mem_of_run _ hbefore).2 (.inl (List.mem_map.2 ⟨b, hb, rfl⟩)))

/-- A program that assigns a variable and its procedure, which assigns others. -/
def assignedProcedure : String :=
  "PROGRAM p; VAR a, b : INTEGER; PROCEDURE q; VAR c : INTEGER; BEGIN c := 1; b := 2 END; " ++
    "BEGIN BEGIN a := 3 END; q := a END."

/-- A program that reads a variable which only its procedure assigns before. -/
def lateAssignment : String :=
  "PROGRAM p; VAR a, b : INTEGER; PROCEDURE q; BEGIN b := 2 END; " ++
    "BEGIN BEGIN a := 3 END; a := a + b; b := a END."

/-- The run of the one program leaves `a` and `q` alone, and that of the other one fails for `b`. -/
theorem guarantees_of_analysis_samples :
    (∃ globals p, (ofSource ⟨.reject, true⟩ assignedProcedure).result = .ok globals ∧
      Program.ofSource assignedProcedure = .ok p ∧ p.targets = ["a", "q"] ∧
      p.declared = ["a", "b", "q"] ∧ (∀ x, x ∈ globals ↔ x ∈ p.targets) ∧
      ∀ x ∈ globals, x ∈ p.declared) ∧
    (ofSource ⟨.reject, true⟩ lateAssignment).result = .error (.runtime (.unassigned "b" 1)) ∧
    ∃ p, Program.ofSource lateAssignment = .ok p ∧ p.targets = ["a", "a", "b"] ∧
      "b" ∈ p.declared := by
  have hok : (ofSource ⟨.reject, true⟩ assignedProcedure).result.isOk := by decide +kernel
  have hnames : (Program.ofSource assignedProcedure).toOption.map
      (fun p => (p.targets, p.declared)) = some (["a", "q"], ["a", "b", "q"]) := by decide +kernel
  have herror : (ofSource ⟨.reject, true⟩ lateAssignment).result.map (fun _ => ()) =
      .error (.runtime (.unassigned "b" 1)) := by decide +kernel
  have hlate : (Program.ofSource lateAssignment).toOption.map Program.targets =
      some ["a", "a", "b"] := by decide +kernel
  refine ⟨?_, ?_⟩
  · cases hr : (ofSource ⟨.reject, true⟩ assignedProcedure).result with
    | error cause =>
      rw [hr] at hok
      cases hok
    | ok globals =>
      obtain ⟨p, hp, htargets, hdeclared⟩ :=
        (guarantees_of_analysis .reject assignedProcedure).1 globals hr
      rw [hp] at hnames
      obtain ⟨hts, hds⟩ := Prod.ext_iff.1 (Option.some.inj hnames)
      exact ⟨globals, p, rfl, hp, hts, hds, htargets, hdeclared⟩
  · have hr : (ofSource ⟨.reject, true⟩ lateAssignment).result =
        .error (.runtime (.unassigned "b" 1)) := by
      cases hr : (ofSource ⟨.reject, true⟩ lateAssignment).result with
      | ok globals =>
        rw [hr] at herror
        cases herror
      | error cause =>
        rw [hr] at herror
        cases herror
        rfl
    obtain ⟨p, before, a, after, globals, hp, -, -, -, hb, -⟩ :=
      (guarantees_of_analysis .reject lateAssignment).2 "b" 1 hr
    rw [hp] at hlate
    exact ⟨hr, p, hp, Option.some.inj hlate, hb⟩

end Run

end PocketPascal
