import Mathlib.Data.List.Nodup
import PocketPascal.Proofs.Scope.Outlines

/-!
# Strict and lax analyses

A strict analysis refuses what a lax one does, and besides the definition of a name that its scope
has defined before. So the two run in lockstep up to the first repeated definition: up to there they
perform the same actions on the same arenas, and behind it the lax analysis goes on alone. A
repeated definition is seen in the outline of its scope, which lists the name twice; what the scopes
around it declare does not matter.
-/

namespace PocketPascal

namespace Analysis

/-! ## Refusals under the two policies -/

/-- A definition repeats a name of its scope. -/
structure Repeats (arena : Arena) (index : Nat) (symbol : Symbol) (scope : Scope) : Prop where
  /-- The scope is in the arena. -/
  found : arena.get? index = some scope
  /-- It has a symbol of the name. -/
  known : (scope.lookup? symbol.name).isSome

theorem refusal?_agree_or_repeats (a : Action) (arena : Arena) :
    a.refusal? .reject arena = a.refusal? .overwrite arena ∨
      ∃ index symbol line scope, a = .define index symbol line ∧ Repeats arena index symbol scope ∧
        a.refusal? .reject arena = some (.duplicateName symbol.name scope.name line) := by
  cases a with
  | define index symbol line =>
    have hlax : (Action.define index symbol line).refusal? .overwrite arena = none := rfl
    cases hget : arena.get? index with
    | none =>
      left
      rw [hlax, Action.refusal?, hget]
      rfl
    | some scope =>
      cases hlook : scope.lookup? symbol.name with
      | none =>
        left
        rw [hlax, Action.refusal?, hget, Option.bind_some, hlook]
        rfl
      | some previous =>
        right
        have hknown : (scope.lookup? symbol.name).isSome := by
          rw [hlook]
          rfl
        refine ⟨index, symbol, line, scope, rfl, ⟨hget, hknown⟩, ?_⟩
        rw [Action.refusal?, hget, Option.bind_some, hlook]
        rfl
  | enterProgram program => exact .inl rfl
  | enterProcedure outer name => exact .inl rfl
  | checkType index type => exact .inl rfl
  | checkName index name => exact .inl rfl
  | leave index => exact .inl rfl

theorem refusal?_overwrite_ne_duplicate (a : Action) (arena : Arena) (name scope : String)
    (line : Nat) : a.refusal? .overwrite arena ≠ some (.duplicateName name scope line) := by
  intro h
  cases Action.refused_of_refusal? h with
  | repeated strict _ _ => cases strict

/-! ## Lockstep -/

/-- Both analyses end alike, or the strict one ends at the first repeated definition, up to which
the lax one performs the same actions. -/
theorem lockstep (as : List Action) (s : State) :
    perform .reject as s = perform .overwrite as s ∨
      ∃ before index symbol line after scope,
        as = before ++ .define index symbol line :: after ∧
        perform .overwrite before s = .ok () (s.after before) ∧
        Repeats (s.after before).arena index symbol scope ∧
        perform .reject as s = .error (.duplicateName symbol.name scope.name line)
          (s.after before) := by
  induction as generalizing s with
  | nil => exact .inl rfl
  | cons a more ih =>
    rcases refusal?_agree_or_repeats a s.arena with hsame |
      ⟨index, symbol, line, scope, rfl, hrepeats, hrefused⟩
    · cases hlax : a.refusal? .overwrite s.arena with
      | some cause =>
        rw [hlax] at hsame
        left
        rw [perform_cons_of_refused hlax, perform_cons_of_refused hsame]
      | none =>
        rw [hlax] at hsame
        rw [perform_cons_of_accepted hlax, perform_cons_of_accepted hsame]
        rcases ih (a.step s) with hends |
          ⟨before, index, symbol, line, after, scope, rfl, hbefore, hrepeats, hrefused⟩
        · exact .inl hends
        · right
          refine ⟨a :: before, index, symbol, line, after, scope, rfl, ?_, hrepeats, hrefused⟩
          rw [perform_cons_of_accepted hlax]
          exact hbefore
    · right
      exact ⟨[], index, symbol, line, more, scope, rfl, rfl, hrepeats,
        perform_cons_of_refused hrefused⟩

theorem resolutions_after (s : State) (as : List Action) :
    s.resolutions <+: (s.after as).resolutions := by
  induction as generalizing s with
  | nil => exact List.prefix_refl _
  | cons a more ih =>
    have hstep : s.resolutions <+: (a.step s).resolutions := by
      unfold State.resolutions Action.step
      rw [Array.toList_append, List.filterMap_append]
      exact List.prefix_append _ _
    exact hstep.trans (ih (a.step s))

/-- A walk ends in the state after some of its actions. -/
theorem exists_after (policy : Policy) (as : List Action) (s : State) :
    ∃ done, done <+: as ∧ (perform policy as s = .ok () (s.after done) ∨
      ∃ cause, perform policy as s = .error cause (s.after done)) := by
  rcases perform_cases policy as s with hok | ⟨before, a, after, cause, rfl, -, -, herror⟩
  · exact ⟨as, List.prefix_refl as, .inl hok⟩
  · exact ⟨before, List.prefix_append _ _, .inr ⟨cause, herror⟩⟩

/-! ## Repeated names in outlines -/

/-- No scope that the actions create defines a name twice. -/
def Distinct (as : List Action) : Prop :=
  ∀ i o, outline? as i = some o → (o.symbols.map Symbol.name).Nodup

theorem nodup_builtinSymbols (parent : Option Nat) :
    ((builtinSymbols parent).map Symbol.name).Nodup := by
  cases parent with
  | none => decide
  | some _ => exact List.nodup_nil

theorem Distinct.step {as : List Action} {s : State} {a : Action} (h : Distinct as)
    (hs : Mirrors as s.arena) (ha : a.Fits s.arena.size)
    (hr : a.refusal? .reject s.arena = none) : Distinct (as ++ [a]) := by
  have hfresh := hs.fresh _ (Nat.le_of_eq hs.size)
  intro i o ho
  cases a with
  | define index symbol line =>
    obtain ⟨scope, o', hget, ho', hmatches⟩ := hs.found ha
    have hnew : symbol.name ∉ o'.symbols.map Symbol.name := by
      rw [← isSome_latest?_iff, ← hmatches.lookup]
      intro hknown
      obtain ⟨previous, hlook⟩ := Option.isSome_iff_exists.1 hknown
      rw [Action.refusal?, hget, if_pos rfl, Option.bind_some, hlook] at hr
      cases hr
    rw [outline?_define] at ho
    by_cases hi : index = i
    · subst hi
      rw [if_pos rfl, ho'] at ho
      cases ho
      rw [List.map_append, List.nodup_append]
      refine ⟨h index o' ho', List.nodup_singleton _, ?_⟩
      intro x hx y hy
      rw [List.map_singleton, List.mem_singleton] at hy
      rintro rfl
      exact hnew (hy ▸ hx)
    · rw [if_neg hi] at ho
      exact h i o ho
  | enterProgram program =>
    rw [outline?_push rfl (fun _ => rfl) hfresh] at ho
    split at ho
    · cases ho
      exact nodup_builtinSymbols none
    · exact h i o ho
  | enterProcedure outer name =>
    rw [outline?_push rfl (fun _ => rfl) hfresh] at ho
    split at ho
    · cases ho
      exact nodup_builtinSymbols (some outer)
    · exact h i o ho
  | checkType index type =>
    rw [outline?_quiet rfl fun _ => rfl] at ho
    exact h i o ho
  | checkName index name =>
    rw [outline?_quiet rfl fun _ => rfl] at ho
    exact h i o ho
  | leave index =>
    rw [outline?_quiet rfl fun _ => rfl] at ho
    exact h i o ho

/-- Actions that the strict analysis performs to the end repeat no name. -/
theorem Distinct.perform {as bs : List Action} {s s' : State} (h : Distinct as)
    (hs : Mirrors as s.arena) (hb : InOrder s.arena.size bs)
    (hp : Analysis.perform .reject bs s = .ok () s') : Distinct (as ++ bs) := by
  induction bs generalizing as s with
  | nil => rwa [List.append_nil]
  | cons a more ih =>
    cases hr : a.refusal? .reject s.arena with
    | some cause =>
      rw [perform_cons_of_refused hr] at hp
      cases hp
    | none =>
      rw [perform_cons_of_accepted hr] at hp
      have hsize : (s.after [a]).arena.size = s.arena.size + (entries [a]).length := size_after
      have hmore : InOrder (a.step s).arena.size more := hsize.symm ▸ hb.2
      have hall := ih (h.step hs hb.1 hr) (hs.step hb.1) hmore hp
      rwa [List.append_assoc] at hall

/-- A repeated definition stands twice in the outline of its scope. -/
theorem Repeats.exists_outline {before after : List Action} {index line : Nat} {symbol : Symbol}
    {scope : Scope} (h : InOrder 0 (before ++ .define index symbol line :: after))
    (hr : Repeats (State.initial.after before).arena index symbol scope) :
    ∃ o, outline? (before ++ .define index symbol line :: after) index = some o ∧
      o.name = scope.name ∧ 1 < (o.symbols.map Symbol.name).count symbol.name := by
  have hbefore : InOrder 0 before := (inOrder_append.1 h).1
  obtain ⟨o, ho, hmatches⟩ := (mirrors_after hbefore).scope index scope hr.found
  have hknown : symbol.name ∈ o.symbols.map Symbol.name := by
    rw [← isSome_latest?_iff, ← hmatches.lookup]
    exact hr.known
  have hdefined : outline? (before ++ [.define index symbol line]) index =
      some { o with symbols := o.symbols ++ [symbol] } := by
    rw [outline?_define, if_pos rfl, ho]
    rfl
  obtain ⟨symbols, hall⟩ : ∃ symbols,
      outline? (before ++ [.define index symbol line] ++ after) index =
        some ⟨o.name, o.parent, o.symbols ++ [symbol] ++ symbols⟩ := outline?_append hdefined
  rw [List.append_assoc, List.singleton_append] at hall
  refine ⟨_, hall, hmatches.name.symm, ?_⟩
  have hcount : 0 < (o.symbols.map Symbol.name).count symbol.name := List.count_pos_iff.2 hknown
  simp only [List.map_append, List.count_append, List.map_singleton, List.count_singleton_self]
  omega

end Analysis

/-! ## Analyses of programs -/

namespace Analyzer

open Analysis

variable {policy : Policy} {p : Program} {s : State}

theorem analyze_of_ok (earlier : State)
    (h : perform policy (programActions p) .initial = .ok () s) :
    (⟨policy, earlier⟩ : Analyzer).analyze p = (.ok (), ⟨policy, s⟩) := by
  rw [← checkProgram_eq_perform] at h
  rw [analyze, h]

theorem analyze_of_error (earlier : State) {cause : ScopeError}
    (h : perform policy (programActions p) .initial = .error cause s) :
    (⟨policy, earlier⟩ : Analyzer).analyze p = (.error cause, ⟨policy, s⟩) := by
  rw [← checkProgram_eq_perform] at h
  rw [analyze, h]

theorem exists_refused {earlier : State} {cause : ScopeError}
    (h : ((⟨policy, earlier⟩ : Analyzer).analyze p).1 = .error cause) :
    ∃ before a after, programActions p = before ++ a :: after ∧
      a.Refused policy (State.initial.after before).arena cause := by
  rcases perform_cases policy (programActions p) .initial with hok |
    ⟨before, a, after, cause', hsplit, -, hrefused, hends⟩
  · rw [analyze_of_ok earlier hok] at h
    cases h
  · rw [analyze_of_error earlier hends] at h
    cases h
    exact ⟨before, a, after, hsplit, Action.refused_of_refusal? hrefused⟩

/-- The strict analysis of a program and the lax one end alike, and then not for a repeated name; or
the strict one ends for a name that one scope declares twice, having found no other names than the
lax one. -/
theorem strict_cases (p : Program) (earlier earlier' : State) :
    (((⟨.overwrite, earlier'⟩ : Analyzer).analyze p).1 =
        ((⟨.reject, earlier⟩ : Analyzer).analyze p).1 ∧
      ((⟨.overwrite, earlier'⟩ : Analyzer).analyze p).2.state =
        ((⟨.reject, earlier⟩ : Analyzer).analyze p).2.state ∧
      ∀ name scope line,
        ((⟨.reject, earlier⟩ : Analyzer).analyze p).1 ≠ .error (.duplicateName name scope line)) ∨
    ∃ name scope line,
      ((⟨.reject, earlier⟩ : Analyzer).analyze p).1 = .error (.duplicateName name scope line) ∧
      ((⟨.reject, earlier⟩ : Analyzer).analyze p).2.state.resolutions <+:
        ((⟨.overwrite, earlier'⟩ : Analyzer).analyze p).2.state.resolutions ∧
      ∃ o ∈ p.outlines, o.name = scope ∧ 1 < (o.symbols.map Symbol.name).count name := by
  rcases lockstep (programActions p) .initial with hsame |
    ⟨before, index, symbol, line, after, scope, hsplit, hbefore, hrepeats, hstrict⟩
  · left
    rcases perform_cases .overwrite (programActions p) .initial with hok |
      ⟨before, a, after, cause, -, -, hrefused, herror⟩
    · rw [analyze_of_ok earlier (hsame.trans hok), analyze_of_ok earlier' hok]
      exact ⟨rfl, rfl, fun _ _ _ h => nomatch h⟩
    · rw [analyze_of_error earlier (hsame.trans herror), analyze_of_error earlier' herror]
      refine ⟨rfl, rfl, fun name scope line h => ?_⟩
      cases h
      exact refusal?_overwrite_ne_duplicate a _ name scope line hrefused
  · right
    refine ⟨symbol.name, scope.name, line, ?_, ?_, ?_⟩
    · rw [analyze_of_error earlier hstrict]
    · rw [analyze_of_error earlier hstrict]
      obtain ⟨done, -, hends⟩ :=
        exists_after .overwrite (.define index symbol line :: after) (State.initial.after before)
      have hlax : perform .overwrite (programActions p) .initial =
          perform .overwrite (.define index symbol line :: after) (State.initial.after before) := by
        rw [hsplit, perform_append, hbefore]
      have hgrows := resolutions_after (State.initial.after before) done
      rcases hends with hok | ⟨cause, herror⟩
      · rw [analyze_of_ok earlier' (hlax.trans hok)]
        exact hgrows
      · rw [analyze_of_error earlier' (hlax.trans herror)]
        exact hgrows
    · have horder := inOrder_programActions p
      rw [hsplit] at horder
      obtain ⟨o, ho, hname, hcount⟩ := hrepeats.exists_outline horder
      rw [← hsplit, outline?_programActions] at ho
      exact ⟨o, List.mem_of_getElem? ho, hname, hcount⟩

/-- A program that the strict analysis accepts declares no name twice in one scope. -/
theorem nodup_of_strict {earlier : State}
    (h : ((⟨.reject, earlier⟩ : Analyzer).analyze p).1 = .ok ()) :
    ∀ o ∈ p.outlines, (o.symbols.map Symbol.name).Nodup := by
  rcases perform_cases .reject (programActions p) .initial with hok |
    ⟨_, _, _, cause, -, -, -, herror⟩
  · have hnothing : Distinct [] := fun i o ho => nomatch ho
    have hempty : Mirrors [] State.initial.arena := mirrors_after trivial
    have hdistinct := hnothing.perform hempty (inOrder_programActions p) hok
    intro o ho
    obtain ⟨i, hi⟩ := List.mem_iff_getElem?.1 ho
    rw [← outline?_programActions] at hi
    exact hdistinct i o hi
  · rw [analyze_of_error earlier herror] at h
    cases h

end Analyzer

end PocketPascal
