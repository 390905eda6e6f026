import PocketPascal.Proofs.Scope.Builtins

/-!
# The scopes of an analysis and the procedures of a program

An analysis creates the scope of the program and then one for every procedure, in the order in which
the procedures are written. What the outlines say about names, enclosing scopes and symbols, they
say about these scopes; what is left are the levels. A procedure stands one level deeper than the
declarations around it, whatever was declared before, and a scope keeps the level that it was created
with. An analysis that fails has created the first of the scopes, with the symbols defined so far.
-/

namespace PocketPascal

mutual

/-- The levels of the scopes that a declaration creates, where the declaration itself stands in a
scope of the given level. -/
def Declaration.levels (level : Nat) : Declaration → List Nat
  | .variable _ => []
  | .procedure _ _ _ declarations _ =>
      (level + 1) :: Declaration.levelsOfList (level + 1) declarations

/-- The levels of the scopes that declarations create, one after another. -/
def Declaration.levelsOfList (level : Nat) : List Declaration → List Nat
  | [] => []
  | first :: more => first.levels level ++ Declaration.levelsOfList level more

end

/-- The levels of the scopes of a program. -/
def Program.levels (p : Program) : List Nat :=
  1 :: Declaration.levelsOfList 1 p.block.declarations

/-! ## Levels in an arena -/

theorem Scope.parent_create (name : String) (level : Nat) (parent : Option Nat) :
    (create name level parent).parent = parent := by
  cases parent <;> rfl

namespace Arena

/-- The levels of the scopes, in the order of their creation. -/
def levels (arena : Arena) : List Nat := arena.scopes.toList.map Scope.level

/-- Every scope is one level deeper than the scope around it, which is older; the first one has none
around it and is on level one. -/
def Nested (arena : Arena) : Prop :=
  ∀ i s, arena.get? i = some s →
    (i = 0 ∧ s.parent = none ∧ s.level = 1) ∨
      ∃ outer < i, s.parent = some outer ∧ ∃ t, arena.get? outer = some t ∧ s.level = t.level + 1

variable {arena : Arena}

theorem length_levels (arena : Arena) : arena.levels.length = arena.size := by
  rw [levels, List.length_map, Array.length_toList, size]

theorem getElem?_levels (arena : Arena) (i : Nat) :
    arena.levels[i]? = (arena.get? i).map Scope.level := by
  rw [levels, List.getElem?_map, Array.getElem?_toList, get?]

@[simp] theorem levels_push (arena : Arena) (name : String) (level : Nat) (parent : Option Nat) :
    (arena.push name level parent).levels = arena.levels ++ [level] := by
  simp [levels, push, Scope.level_create]

@[simp] theorem levels_define (arena : Arena) (i : Nat) (symbol : Symbol) :
    (arena.define i symbol).levels = arena.levels := by
  refine List.ext_getElem? fun j => ?_
  rw [getElem?_levels, getElem?_levels, get?_define]
  split
  · rw [Option.map_map]
    rfl
  · rfl

theorem Nested.push (h : arena.Nested) {parent : Option Nat} {level : Nat}
    (hparent : (arena.size = 0 ∧ parent = none ∧ level = 1) ∨
      ∃ outer t, parent = some outer ∧ arena.get? outer = some t ∧ level = t.level + 1)
    (name : String) : (arena.push name level parent).Nested := by
  intro i s hs
  rw [get?_push] at hs
  by_cases hi : i = arena.size
  · rw [if_pos hi] at hs
    cases hs
    rw [Scope.level_create, Scope.parent_create]
    rcases hparent with ⟨hzero, hnone, hlevel⟩ | ⟨outer, t, hsome, ht, hlevel⟩
    · exact .inl ⟨hi.trans hzero, hnone, hlevel⟩
    · have hlt : outer < arena.size := lt_size_of_get? ht
      refine .inr ⟨outer, by omega, hsome, t, ?_, hlevel⟩
      rw [get?_push, if_neg (by omega), ht]
  · rw [if_neg hi] at hs
    rcases h i s hs with hfirst | ⟨outer, hlt, hsome, t, ht, hlevel⟩
    · exact .inl hfirst
    · have hbound : outer < arena.size := lt_size_of_get? ht
      refine .inr ⟨outer, hlt, hsome, t, ?_, hlevel⟩
      rw [get?_push, if_neg (by omega), ht]

theorem Nested.define (h : arena.Nested) (index : Nat) (symbol : Symbol) :
    (arena.define index symbol).Nested := by
  -- a definition changes neither the level of a scope nor what is around it
  have hsame : ∀ j t, arena.get? j = some t →
      ∃ t', (arena.define index symbol).get? j = some t' ∧ t'.level = t.level := by
    intro j t ht
    rw [get?_define, ht]
    split
    · exact ⟨_, rfl, rfl⟩
    · exact ⟨_, rfl, rfl⟩
  intro i s hs
  obtain ⟨s', hs', hlevel, hparent⟩ :
      ∃ s', arena.get? i = some s' ∧ s.level = s'.level ∧ s.parent = s'.parent := by
    rw [get?_define] at hs
    split at hs
    · obtain ⟨s', hs', rfl⟩ := Option.map_eq_some_iff.1 hs
      exact ⟨s', hs', rfl, rfl⟩
    · exact ⟨s, hs, rfl, rfl⟩
  rw [hlevel, hparent]
  rcases h i s' hs' with hfirst | ⟨outer, hlt, hsome, t, ht, hdeeper⟩
  · exact .inl hfirst
  · obtain ⟨t', ht', htlevel⟩ := hsame outer t ht
    exact .inr ⟨outer, hlt, hsome, t', ht', by rw [htlevel, hdeeper]⟩

end Arena

namespace Analysis

/-! ## Levels along the actions -/

section

variable {s : State} {as bs : List Action} {outer level : Nat}

/-- An action adds the level of the scope that it creates, if it creates one. -/
theorem levels_step (s : State) (a : Action) :
    ∃ more, (a.step s).arena.levels = s.arena.levels ++ more ∧ (entries [a] = [] → more = []) := by
  cases a with
  | enterProgram program => exact ⟨_, Arena.levels_push .., fun h => nomatch h⟩
  | enterProcedure outer name => exact ⟨_, Arena.levels_push .., fun h => nomatch h⟩
  | define index symbol line =>
    exact ⟨[], by rw [List.append_nil]; exact Arena.levels_define .., fun _ => rfl⟩
  | checkType index type => exact ⟨[], (List.append_nil _).symm, fun _ => rfl⟩
  | checkName index name => exact ⟨[], (List.append_nil _).symm, fun _ => rfl⟩
  | leave index => exact ⟨[], (List.append_nil _).symm, fun _ => rfl⟩

theorem levels_prefix_after (s : State) (as : List Action) :
    s.arena.levels <+: (s.after as).arena.levels := by
  induction as generalizing s with
  | nil => exact List.prefix_rfl
  | cons a more ih =>
    obtain ⟨added, hadded, -⟩ := levels_step s a
    have hmore : (a.step s).arena.levels <+: ((a.step s).after more).arena.levels := ih (a.step s)
    rw [hadded] at hmore
    exact (List.prefix_append _ _).trans hmore

/-- Actions that create no scope leave the levels as they are. -/
theorem levels_after_of_entries (h : entries as = []) :
    (s.after as).arena.levels = s.arena.levels := by
  have hsize : (s.after as).arena.size = s.arena.size := by rw [size_after, h]; rfl
  refine ((levels_prefix_after s as).eq_of_length ?_).symm
  rw [Arena.length_levels, Arena.length_levels, hsize]

/-- Entering a procedure from a scope of a level adds the next one. -/
theorem levels_enterProcedure (h : s.arena.levels[outer]? = some level) (name : String) :
    (s.after [.enterProcedure outer name]).arena.levels = s.arena.levels ++ [level + 1] := by
  have hlevel : (s.arena.get? outer).elim 0 Scope.level = level := by
    rw [Arena.getElem?_levels] at h
    obtain ⟨scope, hscope, rfl⟩ := Option.map_eq_some_iff.1 h
    rw [hscope]
    rfl
  show (s.arena.push name _ (some outer)).levels = _
  rw [Arena.levels_push, hlevel]

end

mutual

/-- The actions for a declaration add its levels. -/
theorem levels_declarationActions {s : State} {outer level : Nat}
    (h : s.arena.levels[outer]? = some level) (d : Declaration) :
    (s.after (declarationActions outer s.arena.size d)).arena.levels =
      s.arena.levels ++ d.levels level := by
  cases d with
  | «variable» b =>
    rw [declarationActions, Declaration.levels, List.append_nil]
    exact levels_after_of_entries rfl
  | procedure name line parameters declarations body =>
    rw [declarationActions_procedure, Declaration.levels, State.after_append, State.after_append,
      State.after_append]
    -- the procedure is entered, which adds its own level
    have hopened : (s.after [.define outer ⟨name, .procedure (signature parameters)⟩ line,
        .enterProcedure outer name]).arena.levels = s.arena.levels ++ [level + 1] := by
      have hdefined : (s.after [.define outer ⟨name, .procedure (signature parameters)⟩
          line]).arena.levels = s.arena.levels := levels_after_of_entries rfl
      have hentered := levels_enterProcedure (hdefined ▸ h) name
      rw [hdefined] at hentered
      exact hentered
    generalize s.after [.define outer ⟨name, .procedure (signature parameters)⟩ line,
      .enterProcedure outer name] = opened at hopened ⊢
    -- its parameters add none
    have hbound : (opened.after (parameters.flatMap (bindingActions s.arena.size))).arena.levels =
        s.arena.levels ++ [level + 1] := by
      rw [levels_after_of_entries (entries_bindings _ parameters), hopened]
    generalize opened.after (parameters.flatMap (bindingActions s.arena.size)) = bound at hbound ⊢
    have hsize : bound.arena.size = s.arena.size + 1 := by
      rw [← Arena.length_levels, hbound, List.length_append, Arena.length_levels]
      rfl
    have hlevel : bound.arena.levels[s.arena.size]? = some (level + 1) := by
      rw [hbound, ← Arena.length_levels, List.getElem?_concat_length]
    -- its declarations add theirs, and its body adds none
    have hinner := levels_declarationsActions hlevel declarations
    rw [hsize, hbound, List.append_assoc, List.singleton_append] at hinner
    rw [levels_after_of_entries (entries_body _ _), hinner]

theorem levels_declarationsActions {s : State} {outer level : Nat}
    (h : s.arena.levels[outer]? = some level) (ds : List Declaration) :
    (s.after (declarationsActions outer s.arena.size ds)).arena.levels =
      s.arena.levels ++ Declaration.levelsOfList level ds := by
  cases ds with
  | nil =>
    rw [declarationsActions, Declaration.levelsOfList, List.append_nil]
    rfl
  | cons first more =>
    have hfirst := levels_declarationActions h first
    have hsize : (s.after (declarationActions outer s.arena.size first)).arena.size =
        s.arena.size + (entries (declarationActions outer s.arena.size first)).length := size_after
    have houter : (s.after (declarationActions outer s.arena.size first)).arena.levels[outer]? =
        some level := by
      rw [hfirst, List.getElem?_append_left (List.getElem?_eq_some_iff.1 h).1, h]
    have hmore := levels_declarationsActions houter more
    rw [hsize, hfirst, List.append_assoc] at hmore
    rw [declarationsActions, Declaration.levelsOfList, State.after_append]
    exact hmore

end

theorem levels_programActions (p : Program) :
    (State.initial.after (programActions p)).arena.levels = p.levels := by
  have hfirst : (State.initial.after [.enterProgram p.name]).arena.levels = [1] := rfl
  have houter : (State.initial.after [.enterProgram p.name]).arena.levels[0]? = some 1 := rfl
  have hinner := levels_declarationsActions houter p.block.declarations
  have hsize : (State.initial.after [.enterProgram p.name]).arena.size = 1 := rfl
  rw [hsize, hfirst, List.singleton_append] at hinner
  rw [programActions, ← List.singleton_append, State.after_append, State.after_append,
    levels_after_of_entries (entries_body _ _), hinner, Program.levels]

/-- Actions in order nest the scopes. -/
theorem nested_after {s : State} {as : List Action} (h : s.arena.Nested)
    (has : InOrder s.arena.size as) : (s.after as).arena.Nested := by
  induction as generalizing s with
  | nil => exact h
  | cons a more ih =>
    have hsize : (s.after [a]).arena.size = s.arena.size + (entries [a]).length := size_after
    have hone : s.after [a] = a.step s := rfl
    rw [hone] at hsize
    have hstep : (a.step s).arena.Nested := by
      have hfits : a.Fits s.arena.size := has.1
      cases a with
      | enterProgram program => exact h.push (.inl ⟨hfits, rfl, rfl⟩) _
      | enterProcedure outer name =>
        obtain ⟨t, ht⟩ : ∃ t, s.arena.get? outer = some t :=
          ⟨_, Array.getElem?_eq_getElem hfits⟩
        refine h.push (.inr ⟨outer, t, rfl, ht, ?_⟩) name
        rw [ht]
        rfl
      | define index symbol line => exact h.define index symbol
      | checkType index type => exact h
      | checkName index name => exact h
      | leave index => exact h
    exact ih hstep (hsize ▸ has.2)

/-! ## The scopes of a program -/

/-- The arena holds the first scopes that the outlines describe, or all of them, and in each of them
what the given actions have defined in it. -/
structure Holds (arena : Arena) (os : List Outline) (done : List Action) : Prop where
  /-- There are no more scopes than outlines. -/
  size : arena.size ≤ os.length
  /-- The symbols of a scope are the first ones that its outline lists, the name of the scope and
  the scope around it are those of the outline. -/
  scope : ∀ i s, arena.get? i = some s → ∃ o, os[i]? = some o ∧
    builtinSymbols o.parent ++ definedIn i done <+: o.symbols ∧
    s.Matches { o with symbols := builtinSymbols o.parent ++ definedIn i done }

section

variable {p : Program}

theorem length_outlines (p : Program) : p.outlines.length = (entries (programActions p)).length := by
  refine Nat.le_antisymm (Nat.le_of_not_lt fun hlt => ?_) (Nat.le_of_not_lt fun hlt => ?_)
  · have hnone := outline?_programActions p (entries (programActions p)).length
    rw [outline?, List.getElem?_eq_none (Nat.le_refl _), List.getElem?_eq_getElem hlt] at hnone
    cases hnone
  · have hsome := outline?_programActions p p.outlines.length
    rw [outline?, List.getElem?_eq_getElem hlt, List.getElem?_eq_none (Nat.le_refl _)] at hsome
    cases hsome

/-- After the first actions of a program the arena holds its first scopes. -/
theorem holds_after {done rest : List Action} (hsplit : programActions p = done ++ rest) :
    Holds (State.initial.after done).arena p.outlines done := by
  have horder := inOrder_programActions p
  rw [hsplit] at horder
  have hmirrors := mirrors_after (inOrder_append.1 horder).1
  refine ⟨?_, fun i s hs => ?_⟩
  · rw [hmirrors.size, length_outlines, hsplit, entries_append, List.length_append]
    exact Nat.le_add_right _ _
  · obtain ⟨o, ho, hmatches⟩ := hmirrors.scope i s hs
    obtain ⟨more, hall⟩ : ∃ symbols,
        outline? (done ++ rest) i = some ⟨o.name, o.parent, o.symbols ++ symbols⟩ :=
      outline?_append ho
    rw [← hsplit, outline?_programActions] at hall
    obtain ⟨entry, -, rfl⟩ := Option.map_eq_some_iff.1 ho
    exact ⟨_, hall, List.prefix_append _ _, hmatches⟩

theorem nested_of_split {done rest : List Action} (hsplit : programActions p = done ++ rest) :
    (State.initial.after done).arena.Nested := by
  have horder := inOrder_programActions p
  rw [hsplit] at horder
  exact nested_after (fun i s hs => nomatch hs) (inOrder_append.1 horder).1

/-- After all actions of a program the arena holds all its scopes, as the outlines describe them. -/
theorem matches_programActions {i : Nat} {s : Scope}
    (hs : (State.initial.after (programActions p)).arena.get? i = some s) :
    ∃ o, p.outlines[i]? = some o ∧ s.Matches o := by
  obtain ⟨o, ho, hmatches⟩ := (mirrors_after (inOrder_programActions p)).scope i s hs
  rw [outline?_programActions] at ho
  exact ⟨o, ho, hmatches⟩

end

end Analysis

open Analysis

/-- The scopes of an analysis mirror the procedures of a program, under both policies and whatever
was analysed before.

* If the analysis accepts the program, there is one scope for every outline: one for the program and
  one for each procedure, in the order in which they are written. Its name, the scope around it and
  under every name the latest symbol are those of the outline; its level is the depth of the
  procedure, one more than that of the older scope around it.
* If the analysis fails, it has performed the actions before the refused one. The scopes are the
  first ones of those, with the same names, levels and scopes around them, and their symbols are the
  ones that have been defined up to there. -/
theorem Analyzer.arena_of_analyze (policy : Policy) (earlier : State) (p : Program) :
    (((⟨policy, earlier⟩ : Analyzer).analyze p).1 = .ok () →
      ((⟨policy, earlier⟩ : Analyzer).analyze p).2.state.arena.size = p.outlines.length ∧
      (∀ i s, ((⟨policy, earlier⟩ : Analyzer).analyze p).2.state.arena.get? i = some s →
        ∃ o, p.outlines[i]? = some o ∧ s.Matches o) ∧
      ((⟨policy, earlier⟩ : Analyzer).analyze p).2.state.arena.levels = p.levels ∧
      ((⟨policy, earlier⟩ : Analyzer).analyze p).2.state.arena.Nested) ∧
    ∀ cause, ((⟨policy, earlier⟩ : Analyzer).analyze p).1 = .error cause →
      ∃ before a after, programActions p = before ++ a :: after ∧
        perform policy before .initial =
          .ok () ((⟨policy, earlier⟩ : Analyzer).analyze p).2.state ∧
        a.Refused policy ((⟨policy, earlier⟩ : Analyzer).analyze p).2.state.arena cause ∧
        Holds ((⟨policy, earlier⟩ : Analyzer).analyze p).2.state.arena p.outlines before ∧
        ((⟨policy, earlier⟩ : Analyzer).analyze p).2.state.arena.levels <+: p.levels ∧
        ((⟨policy, earlier⟩ : Analyzer).analyze p).2.state.arena.Nested := by
  rcases perform_cases policy (programActions p) .initial with hok |
    ⟨before, a, after, cause, hsplit, hbefore, hrefused, hends⟩
  · rw [analyze_of_ok earlier hok]
    refine ⟨fun _ => ⟨?_, fun i s => matches_programActions, levels_programActions p,
      nested_of_split (List.append_nil _).symm⟩, fun cause h => nomatch h⟩
    rw [length_outlines]
    exact (mirrors_after (inOrder_programActions p)).size
  · rw [analyze_of_error earlier hends]
    refine ⟨fun h => (nomatch h), fun cause' h => ?_⟩
    cases h
    refine ⟨before, a, after, hsplit, hbefore, Action.refused_of_refusal? hrefused,
      holds_after hsplit, ?_, nested_of_split hsplit⟩
    rw [← levels_programActions, hsplit, State.after_append]
    exact levels_prefix_after _ _

/-- A program with a procedure in a procedure, a variable named like a parameter, and a procedure
named like a variable. -/
def nestedProcedures : Program :=
  ⟨"p", [.variable ⟨⟨"a", 1⟩, ⟨"INTEGER", 1⟩⟩,
    .procedure "q" 2 [⟨⟨"x", 2⟩, ⟨"REAL", 2⟩⟩]
      [.variable ⟨⟨"x", 3⟩, ⟨"INTEGER", 3⟩⟩, .procedure "r" 4 [] [] []] [],
    .procedure "a" 5 [] [] []], []⟩

/-- The lax analysis creates four scopes and lets the later declaration win; the strict one fails
with two of them. -/
theorem arena_of_analyze_samples :
    ((⟨.overwrite, .initial⟩ : Analyzer).analyze nestedProcedures).1 = .ok () ∧
    ((⟨.overwrite, .initial⟩ : Analyzer).analyze nestedProcedures).2.state.arena.size = 4 ∧
    ((⟨.overwrite, .initial⟩ : Analyzer).analyze nestedProcedures).2.state.arena.levels =
      [1, 2, 3, 2] ∧
    (∀ s, ((⟨.overwrite, .initial⟩ : Analyzer).analyze nestedProcedures).2.state.arena.get? 1 =
      some s → s.name = "q" ∧ s.parent = some 0 ∧
        s.lookup? "x" = some ⟨"x", .variable "INTEGER"⟩) ∧
    ((⟨.reject, .initial⟩ : Analyzer).analyze nestedProcedures).1 =
      .error (.duplicateName "x" "q" 3) ∧
    ((⟨.reject, .initial⟩ : Analyzer).analyze nestedProcedures).2.state.arena.levels <+:
      [1, 2, 3, 2] := by
  have haccepted : ((⟨.overwrite, .initial⟩ : Analyzer).analyze nestedProcedures).1 = .ok () := by
    decide +kernel
  have hrejected : ((⟨.reject, .initial⟩ : Analyzer).analyze nestedProcedures).1 =
      .error (.duplicateName "x" "q" 3) := by decide +kernel
  obtain ⟨hsize, hscopes, hlevels, -⟩ :=
    (Analyzer.arena_of_analyze .overwrite .initial nestedProcedures).1 haccepted
  obtain ⟨before, a, after, -, -, -, -, hprefix, -⟩ :=
    (Analyzer.arena_of_analyze .reject .initial nestedProcedures).2 _ hrejected
  refine ⟨haccepted, hsize, hlevels, fun s hs => ?_, hrejected, hprefix⟩
  obtain ⟨o, ho, hmatches⟩ := hscopes 1 s hs
  cases ho
  refine ⟨hmatches.name, hmatches.parent, ?_⟩
  rw [hmatches.lookup]
  decide

end PocketPascal
