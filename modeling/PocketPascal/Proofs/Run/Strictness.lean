import PocketPascal.Proofs.Run.Phases
import PocketPascal.Proofs.Scope.Strictness

/-!
# What the policy changes

The policy on repeated declarations decides about repeated declarations alone. Where the strict
analysis has nothing against a program, neither has the lax one, and a run does the same under all
settings.
-/

namespace PocketPascal

/-- A program whose names are accepted by the strict analysis has the same result under all
settings. -/
theorem Program.result_of_strict {p : Program} (h : (Scoping.check .reject p).1 = .ok ())
    (options : Options) : p.result options = p.result ⟨.reject, true⟩ := by
  have hlax : (Scoping.check .overwrite p).1 = .ok () := by
    have hstrict : ((⟨.reject, .initial⟩ : Analyzer).analyze p).1 = .ok () := by
      rw [← h]
      exact Analyzer.fst_analyze_create .reject p
    have hsame : ((⟨.overwrite, .initial⟩ : Analyzer).analyze p).1 =
        (Scoping.check .overwrite p).1 := Analyzer.fst_analyze_create .overwrite p
    rcases Analyzer.strict_cases p .initial .initial with ⟨hends, -, -⟩ | ⟨_, _, _, herror, -, -⟩
    · rw [← hsame, hends, hstrict]
    · rw [hstrict] at herror
      cases herror
  obtain ⟨policy, analyze⟩ := options
  unfold result
  rw [h]
  cases analyze with
  | false => rfl
  | true =>
    cases policy with
    | reject => rw [h]
    | overwrite => rw [hlax]

namespace Run

/-- The strict policy only adds errors for repeated names. Whatever was analysed before, for every
program:

* if the strict analysis accepts it, so does the lax one, with the same scopes and the same events;
* if the strict analysis ends with another error than one for a repeated name, the lax one ends with
  the same error in the same state;
* if it ends for a repeated name, one scope of the program declares the name twice, and the names
  that were found before are the first ones that the lax analysis finds;
* a program that the lax analysis accepts is accepted by the strict one exactly if no scope declares
  a name twice.

So a source text against whose names a strict run has nothing has the same result under all
settings. -/
theorem strict_adds_duplicates (earlier earlier' : Analysis.State) :
    (∀ p : Program,
      (((⟨.reject, earlier⟩ : Analyzer).analyze p).1 = .ok () →
        ((⟨.overwrite, earlier'⟩ : Analyzer).analyze p).1 = .ok () ∧
        ((⟨.overwrite, earlier'⟩ : Analyzer).analyze p).2.state =
          ((⟨.reject, earlier⟩ : Analyzer).analyze p).2.state) ∧
      (∀ cause, ((⟨.reject, earlier⟩ : Analyzer).analyze p).1 = .error cause →
        (∀ name scope line, cause ≠ .duplicateName name scope line) →
        ((⟨.overwrite, earlier'⟩ : Analyzer).analyze p).1 = .error cause ∧
        ((⟨.overwrite, earlier'⟩ : Analyzer).analyze p).2.state =
          ((⟨.reject, earlier⟩ : Analyzer).analyze p).2.state) ∧
      (∀ name scope line,
        ((⟨.reject, earlier⟩ : Analyzer).analyze p).1 = .error (.duplicateName name scope line) →
        ((⟨.reject, earlier⟩ : Analyzer).analyze p).2.state.resolutions <+:
          ((⟨.overwrite, earlier'⟩ : Analyzer).analyze p).2.state.resolutions ∧
        ∃ o ∈ p.outlines, o.name = scope ∧ 1 < (o.symbols.map Symbol.name).count name) ∧
      (((⟨.overwrite, earlier'⟩ : Analyzer).analyze p).1 = .ok () →
        (((⟨.reject, earlier⟩ : Analyzer).analyze p).1 = .ok () ↔
          ∀ o ∈ p.outlines, (o.symbols.map Symbol.name).Nodup))) ∧
    ∀ source : String,
      (∀ cause, (ofSource ⟨.reject, true⟩ source).result ≠ .error (.scope cause)) →
      ∀ options, (ofSource options source).result = (ofSource ⟨.reject, true⟩ source).result := by
  refine ⟨fun p => ?_, fun source hnone options => ?_⟩
  · rcases Analyzer.strict_cases p earlier earlier' with ⟨hends, hstate, hother⟩ |
      ⟨name, scope, line, hstrict, hgrows, o, ho, hname, hcount⟩
    · refine ⟨fun hok => ⟨hends.trans hok, hstate⟩,
        fun cause herror _ => ⟨hends.trans herror, hstate⟩,
        fun name scope line herror => absurd herror (hother name scope line), fun hlax => ?_⟩
      have hok := hends.symm.trans hlax
      exact ⟨fun _ => Analyzer.nodup_of_strict hok, fun _ => hok⟩
    · rw [hstrict]
      refine ⟨fun hok => (nomatch hok), fun cause herror hother => ?_,
        fun name' scope' line' herror => ?_,
        fun _ => ⟨fun hok => (nomatch hok), fun hdistinct => ?_⟩⟩
      · cases herror
        exact absurd rfl (hother name scope line)
      · cases herror
        exact ⟨hgrows, o, ho, hname, hcount⟩
      · have honce := List.nodup_iff_count_le_one.1 (hdistinct o ho) name
        omega
  · rw [result_ofSource] at hnone
    rw [result_ofSource, result_ofSource]
    cases hp : Program.ofSource source with
    | error cause => rfl
    | ok p =>
      rw [hp] at hnone
      change ∀ cause, p.result ⟨.reject, true⟩ ≠ .error (.scope cause) at hnone
      show p.result options = p.result ⟨.reject, true⟩
      cases hc : (Scoping.check .reject p).1 with
      | ok _ => exact Program.result_of_strict hc options
      | error cause =>
        have herror : p.result ⟨.reject, true⟩ = .error (.scope cause) := by
          rw [Program.result, if_pos rfl, hc]
          rfl
        exact absurd herror (hnone cause)

/-- A program whose procedure declares the name of a variable around it once more. -/
def shadowed : Program :=
  ⟨"p", ⟨[.variable ⟨⟨"a", 1⟩, ⟨"INTEGER", 1⟩⟩,
    .procedure "q" 2 [⟨⟨"a", 2⟩, ⟨"REAL", 2⟩⟩] [] [.assign ⟨"a", 3⟩ (.variable ⟨"a", 3⟩) 3]],
    [.assign ⟨"a", 4⟩ (.literal (.integer 1) 4) 4]⟩⟩

/-- A program that uses a name which it does not declare. -/
def undeclared : Program := ⟨"p", ⟨[], [.assign ⟨"b", 1⟩ (.literal (.integer 1) 1) 1]⟩⟩

/-- A program whose procedure declares a variable with the name of its parameter. -/
def repeated : Program :=
  ⟨"p", ⟨[.procedure "q" 1 [⟨⟨"a", 1⟩, ⟨"INTEGER", 1⟩⟩]
    [.variable ⟨⟨"a", 2⟩, ⟨"REAL", 2⟩⟩] [.assign ⟨"a", 3⟩ (.literal (.integer 1) 3) 3]], []⟩⟩

/-- A source text that fails for a variable without a value, under all settings. -/
def unassigned : String := "PROGRAM p; VAR a, b : INTEGER; BEGIN a := b END."

theorem strict_adds_duplicates_samples :
    ((⟨.overwrite, .initial⟩ : Analyzer).analyze shadowed).1 = .ok () ∧
    ((⟨.overwrite, .initial⟩ : Analyzer).analyze undeclared).1 = .error (.unknownName "b" 1) ∧
    (∃ o ∈ repeated.outlines, o.name = "q" ∧ 1 < (o.symbols.map Symbol.name).count "a") ∧
    ((⟨.overwrite, .initial⟩ : Analyzer).analyze repeated).1 = .ok () ∧
    (¬ ∀ o ∈ repeated.outlines, (o.symbols.map Symbol.name).Nodup) ∧
    ∀ options, (ofSource options unassigned).result = .error (.runtime (.unassigned "b" 1)) := by
  have hshadowed : ((⟨.reject, .initial⟩ : Analyzer).analyze shadowed).1 = .ok () := by
    decide +kernel
  have hundeclared : ((⟨.reject, .initial⟩ : Analyzer).analyze undeclared).1 =
      .error (.unknownName "b" 1) := by decide +kernel
  have hrepeated : ((⟨.reject, .initial⟩ : Analyzer).analyze repeated).1 =
      .error (.duplicateName "a" "q" 2) := by decide +kernel
  have hlax : ((⟨.overwrite, .initial⟩ : Analyzer).analyze repeated).1 = .ok () := by decide +kernel
  have hrun : (ofSource ⟨.reject, true⟩ unassigned).result =
      .error (.runtime (.unassigned "b" 1)) := eq_error_of_map (by decide +kernel)
  have key := strict_adds_duplicates .initial .initial
  have hdistinct := (key.1 repeated).2.2.2 hlax
  refine ⟨((key.1 shadowed).1 hshadowed).1,
    ((key.1 undeclared).2.1 _ hundeclared fun _ _ _ h => nomatch h).1,
    ((key.1 repeated).2.2.1 _ _ _ hrepeated).2, hlax, fun hnodup => ?_, fun options => ?_⟩
  · have hok := hdistinct.2 hnodup
    rw [hrepeated] at hok
    cases hok
  · have hnone : ∀ cause, (ofSource ⟨.reject, true⟩ unassigned).result ≠ .error (.scope cause) := by
      intro cause h
      rw [hrun] at h
      cases h
    rw [key.2 unassigned hnone options, hrun]

end Run

end PocketPascal
