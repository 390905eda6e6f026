import PocketPascal.Log
import PocketPascal.Proofs.Scope.Nesting
import PocketPascal.Proofs.Scope.OpenScopes

/-!
# Records of entering and leaving scopes

The log of an analysis tells of every scope when it is entered and when it is left, and lists it
when it is left. Read in order, these records are brackets. They are the brackets of the program as
far as the analysis has come: all of them if it accepts the program, and otherwise those up to the
error, where the scopes that are still open are the chain around the scope of the error. What a
record says of a scope is true of the scope in the end, the listing included.
-/

namespace PocketPascal

/-- The record tells that a scope is entered or left. -/
def Log.Record.tellsOfScope (r : Log.Record) : Bool :=
  "Entering scope ".toList.isPrefixOf r.message.toList ||
    "Leaving scope ".toList.isPrefixOf r.message.toList

namespace Analysis

/-- A scope is entered or left. -/
def Event.tellsOfScope : Event → Bool
  | enterProgram _ => true
  | enterProcedure _ _ _ => true
  | leave _ _ _ => true
  | define _ _ => false
  | replace _ _ _ => false
  | resolve _ => false

theorem tellsOfScope_ofEvent (event : Event) :
    (Log.ofEvent event).tellsOfScope = event.tellsOfScope := by
  unfold Log.Record.tellsOfScope
  cases event <;> simp [Log.ofEvent, Event.tellsOfScope, List.isPrefixOf]

/-- The records of entering and leaving scopes, in order. -/
def State.scopeRecords (s : State) : List Log.Record :=
  (s.events.toList.map Log.ofEvent).filter Log.Record.tellsOfScope

/-- What a record of a program says of a bracket, where the scopes are those of an arena. -/
inductive Records (program : String) (arena : Arena) : Bracket → Log.Record → Prop where
  /-- The outermost scope is entered for the program. -/
  | program : Records program arena (.enter 0)
      ⟨.debug, .analysis, "Entering scope '" ++ globalName ++ "' for program '" ++ program ++ "'"⟩
  /-- Another scope is entered, with its level. -/
  | procedure {i : Nat} {s : Scope} (inner : i ≠ 0) (found : arena.get? i = some s) :
      Records program arena (.enter i)
        ⟨.debug, .analysis, "Entering scope '" ++ s.name ++ "' at level " ++ toString s.level⟩
  /-- A scope is left, with the name of the scope around it and with its listing. -/
  | left {i : Nat} {outer : Option Nat} {s : Scope} (found : arena.get? i = some s) :
      Records program arena (.leave i outer)
        ⟨.debug, .analysis, "Leaving scope '" ++ s.name ++ "' (enclosing: " ++
          ((outer.bind arena.get?).map Scope.name).getD "none" ++ ")\n" ++ s.dump⟩

/-! ## What is noted along the actions -/

/-- The records of entering and leaving scopes that actions note. -/
def noted (s : State) : List Action → List Log.Record
  | [] => []
  | a :: more =>
      ((a.events s.arena).map Log.ofEvent).filter Log.Record.tellsOfScope ++ noted (a.step s) more

theorem scopeRecords_after (s : State) (as : List Action) :
    (s.after as).scopeRecords = s.scopeRecords ++ noted s as := by
  induction as generalizing s with
  | nil => exact (List.append_nil _).symm
  | cons a more ih =>
    have hstep : (a.step s).scopeRecords = s.scopeRecords ++
        ((a.events s.arena).map Log.ofEvent).filter Log.Record.tellsOfScope := by
      unfold State.scopeRecords Action.step
      rw [Array.toList_append, List.map_append, List.filter_append]
    have hmore : ((a.step s).after more).scopeRecords =
        (a.step s).scopeRecords ++ noted (a.step s) more := ih (a.step s)
    rw [hstep, List.append_assoc] at hmore
    exact hmore

theorem noted_cons {s : State} {a : Action} {event : Event} (h : a.events s.arena = [event])
    (ht : event.tellsOfScope = true) (more : List Action) :
    noted s (a :: more) = Log.ofEvent event :: noted (a.step s) more := by
  have hkept : (Log.ofEvent event).tellsOfScope = true := by rw [tellsOfScope_ofEvent, ht]
  rw [noted, h, List.map_singleton, List.filter_singleton, hkept]
  rfl

/-- Nothing that is done inside a scope tells of entering or leaving one. -/
theorem Action.WorksIn.records {index : Nat} {a : Action} (h : a.WorksIn index) (arena : Arena) :
    ((a.events arena).map Log.ofEvent).filter Log.Record.tellsOfScope = [] := by
  rw [List.filter_map, List.map_eq_nil_iff, List.filter_eq_nil_iff]
  intro event hevent
  have hquiet : event.tellsOfScope = false := by
    cases h with
    | checkType type => cases hevent
    | checkName name =>
      obtain ⟨found, -, hfound⟩ := Option.bind_eq_some_iff.1 (Option.mem_toList.1 hevent)
      obtain ⟨scope, -, rfl⟩ := Option.map_eq_some_iff.1 hfound
      rfl
    | define symbol line =>
      rw [events] at hevent
      cases hget : arena.get? index with
      | none =>
        rw [hget] at hevent
        cases hevent
      | some scope =>
        rw [hget] at hevent
        rcases List.mem_cons.1 hevent with rfl | hevent
        · rfl
        · obtain ⟨previous, -, rfl⟩ := Option.map_eq_some_iff.1 (Option.mem_toList.1 hevent)
          rfl
  simp [tellsOfScope_ofEvent, hquiet]

section

variable {s : State} {as : List Action} {bs : List Bracket} {stack stack' : List Nat}

/-- Whatever is done later, the record of entering a procedure tells of its scope. -/
theorem records_enter (program : String) {outer : Nat} {name : String} (more : List Action)
    (hpos : 0 < s.arena.size) :
    Records program (((Action.enterProcedure outer name).step s).after more).arena
      (.enter s.arena.size) (Log.ofEvent (.enterProcedure s.arena.size name
        ((s.arena.get? outer).elim 0 Scope.level + 1))) := by
  have hget : ((Action.enterProcedure outer name).step s).arena.get? s.arena.size =
      some (Scope.create name ((s.arena.get? outer).elim 0 Scope.level + 1) (some outer)) := by
    show (s.arena.push name _ (some outer)).get? s.arena.size = _
    rw [Arena.get?_push, if_pos rfl]
  -- the scope may get symbols later, but no other name or level
  obtain ⟨scope, hscope, hbecame⟩ := became_after more hget
  have hname : scope.name = name :=
    hbecame.name.trans (Scope.matches_create name _ (some outer)).name
  have hlevel : scope.level = (s.arena.get? outer).elim 0 Scope.level + 1 :=
    hbecame.level.trans (Scope.level_create name _ (some outer))
  have hrecord : Records program (((Action.enterProcedure outer name).step s).after more).arena
      (.enter s.arena.size) _ := .procedure (Nat.pos_iff_ne_zero.1 hpos) hscope
  rw [hname, hlevel] at hrecord
  exact hrecord

/-- If nothing is defined in a scope after it has been left, the record of leaving it tells of it and
of the scope around it as they are in the end. -/
theorem records_leave (program : String) {index : Nat} {more : List Action}
    (hs : Stacked s.arena (index :: stack)) (hnothing : definedIn index more = []) :
    ∃ event, (Action.leave index).events s.arena = [event] ∧ event.tellsOfScope = true ∧
      Records program (((Action.leave index).step s).after more).arena
        (.leave index stack.head?) (Log.ofEvent event) := by
  obtain ⟨scope, hget, hparent⟩ : ∃ scope, s.arena.get? index = some scope ∧
      scope.parent = stack.head? := by
    cases hs.chain with
    | @scope _ scope _ found around => exact ⟨scope, found, around.head?.symm⟩
  have hfinal : (((Action.leave index).step s).after more).arena.get? index = some scope := by
    have hthere : index < ((Action.leave index).step s).arena.size := hs.lt_size
    exact (get?_after_of_definedIn hthere hnothing).trans hget
  have houter : (stack.head?.bind (((Action.leave index).step s).after more).arena.get?).map
      Scope.name = (stack.head?.bind s.arena.get?).map Scope.name := by
    cases stack with
    | nil => rfl
    | cons outer around =>
      obtain ⟨t, ht⟩ : ∃ t, s.arena.get? outer = some t :=
        ⟨_, Array.getElem?_eq_getElem hs.left.lt_size⟩
      have hleft : ((Action.leave index).step s).arena.get? outer = some t := ht
      obtain ⟨t', ht', hbecame⟩ := became_after more hleft
      rw [List.head?_cons, Option.bind_some, Option.bind_some, ht, ht', Option.map_some,
        Option.map_some, hbecame.name]
  have hevents : (Action.leave index).events s.arena =
      [.leave index scope ((stack.head?.bind s.arena.get?).map Scope.name)] := by
    rw [Action.events, hget, ← hparent]
    rfl
  have hrecord : Records program (((Action.leave index).step s).after more).arena
      (.leave index stack.head?) _ := .left hfinal
  rw [houter] at hrecord
  exact ⟨_, hevents, rfl, hrecord⟩

/-- The scopes inside a program are recorded as their brackets say. -/
theorem records_noted (program : String) (hs : Stacked s.arena stack)
    (hc : Course s.arena.size stack as bs stack') (horder : InOrder s.arena.size as)
    (hpos : 0 < s.arena.size) :
    List.Forall₂ (Records program (s.after as).arena) bs (noted s as) := by
  generalize hsize : s.arena.size = size at hc horder hpos
  induction hc generalizing s with
  | done size stack => exact .nil
  | @enterProgram size name more bs stack' rest ih =>
    -- the program is entered where there are no scopes yet
    have hzero : size = 0 := horder.1
    omega
  | @enterProcedure size outer name more bs stack stack' rest ih =>
    subst hsize
    have hentered := hs.entered name ((s.arena.get? outer).elim 0 Scope.level + 1)
    have hnew : ((Action.enterProcedure outer name).step s).arena.size = s.arena.size + 1 :=
      Arena.size_push ..
    have hmore := ih hentered hnew horder.2 (Nat.succ_pos _)
    rw [noted_cons (s := s) (a := .enterProcedure outer name) rfl rfl]
    exact .cons (records_enter program more hpos) hmore
  | @leave size index more bs stack stack' rest ih =>
    have hindex : index < size := hsize ▸ hs.lt_size
    have hnothing : definedIn index more = [] := rest.definedIn_of_not_mem hindex hs.not_mem
    obtain ⟨event, hevents, htells, hrecord⟩ := records_leave program hs hnothing
    have hleft : Stacked ((Action.leave index).step s).arena stack := hs.left
    rw [noted_cons hevents htells]
    exact .cons hrecord (ih hleft hsize horder.2 hpos)
  | @inside size index a more bs stack stack' works rest ih =>
    have hnew : (a.step s).arena.size = size := by
      rw [size_step, works.entries, hsize]
      rfl
    have horder' : InOrder size more := by
      have hmore := horder.2
      rw [works.entries] at hmore
      exact hmore
    have hmore := ih (hs.inside works) hnew horder' hpos
    unfold noted
    rw [works.records, List.nil_append]
    exact hmore

end

/-! ## The records of a program -/

/-- What a state records of entering and leaving the scopes of a program are brackets that leave the
scopes `opened` open, the innermost one first. -/
structure Recorded (p : Program) (s : State) (bs : List Bracket) (opened : List Nat) : Prop where
  /-- The scopes are the first ones of the program, in the order in which these are written. -/
  scopes : ∀ i scope, s.arena.get? i = some scope →
    ∃ o, p.outlines[i]? = some o ∧ scope.name = o.name ∧ scope.parent = o.parent
  /-- Record by record they say what the brackets do, and what is true of the scopes in the end. -/
  records : List.Forall₂ (Records p.name s.arena) bs s.scopeRecords
  /-- Every scope is entered once, in the order of the indexes. -/
  entered : bs.filterMap Bracket.entered? = List.range s.arena.size
  /-- The scope that is left is always the last one that was entered and is still open. -/
  nest : Bracket.nest [] bs = some opened
  /-- Every scope is left once or is still open. -/
  left : (bs.filterMap Bracket.left? ++ opened).Perm (List.range s.arena.size)

theorem Recorded.mem_opened_iff {p : Program} {s : State} {bs : List Bracket} {opened : List Nat}
    (h : Recorded p s bs opened) (i : Nat) :
    i ∈ opened ↔ i ∈ bs.filterMap Bracket.entered? ∧ i ∉ bs.filterMap Bracket.left? := by
  have hmem : i ∈ bs.filterMap Bracket.left? ++ opened ↔ i ∈ List.range s.arena.size :=
    h.left.mem_iff
  have hdistinct : (bs.filterMap Bracket.left? ++ opened).Nodup :=
    h.left.nodup_iff.2 List.nodup_range
  rw [h.entered, ← hmem]
  constructor
  · intro hopened
    refine ⟨List.mem_append_right _ hopened, ?_⟩
    intro hleft
    exact (List.nodup_append.1 hdistinct).2.2 i hleft i hopened rfl
  · rintro ⟨hall, hnotleft⟩
    rcases List.mem_append.1 hall with hleft | hopened
    · exact absurd hleft hnotleft
    · exact hopened

theorem records_after {p : Program} {done rest : List Action}
    (hsplit : programActions p = done ++ rest) {bs : List Bracket} {opened : List Nat}
    (hc : Course 0 [] done bs opened) :
    List.Forall₂ (Records p.name (State.initial.after done).arena) bs
      (State.initial.after done).scopeRecords := by
  have horder : InOrder 0 done := by
    have hall := inOrder_programActions p
    rw [hsplit] at hall
    exact (inOrder_append.1 hall).1
  cases done with
  | nil =>
    cases hc
    exact .nil
  | cons a more =>
    -- the first action of a program enters it, and no other one does
    obtain ⟨rfl, -⟩ := List.cons.inj hsplit
    cases hc with
    | enterProgram hmore =>
      have hstart := Stacked.initial.entered globalName 1
      have hrecords := records_noted (s := (Action.enterProgram p.name).step .initial) p.name
        hstart hmore horder.2 Nat.one_pos
      have hall : (State.initial.after (.enterProgram p.name :: more)).scopeRecords =
          noted .initial (.enterProgram p.name :: more) := scopeRecords_after ..
      have hevents : (Action.enterProgram p.name).events State.initial.arena =
          [.enterProgram p.name] := rfl
      rw [hall, noted_cons hevents rfl]
      exact .cons .program hrecords

/-- The first actions of a program record the first of its brackets. -/
theorem recorded_after {p : Program} {done rest : List Action}
    (hsplit : programActions p = done ++ rest) {bs : List Bracket} {opened : List Nat}
    (hc : Course 0 [] done bs opened) : Recorded p (State.initial.after done) bs opened := by
  have hsize : (State.initial.after done).arena.size = (entries done).length := by
    rw [size_after]
    exact Nat.zero_add _
  have hentered : bs.filterMap Bracket.entered? =
      List.range (State.initial.after done).arena.size := by
    rw [hc.entered, hsize, List.range_eq_range']
  refine ⟨?_, records_after hsplit hc, hentered, hc.nest, ?_⟩
  · intro i scope hscope
    obtain ⟨o, ho, -, hmatches⟩ := (holds_after hsplit).scope i scope hscope
    exact ⟨o, ho, hmatches.name, hmatches.parent⟩
  · have hperm := Bracket.perm_of_nest hc.nest
    rw [List.nil_append, hentered] at hperm
    exact hperm.symm

end Analysis

open Analysis

/-- The records of entering and leaving scopes are nested as the procedures of the program are,
under both policies and whatever was analysed before.

* If the analysis accepts the program, they are its brackets, and no scope is open in the end.
* If the analysis fails, they are the first ones of its brackets, and the scopes that have been
  entered and not left are the one in which the analysis has failed and the scopes around it.

In either case a record tells the name and the level of its scope and the name of the scope around
it, and a scope that is left is listed as it is in the end. -/
theorem Analyzer.scopeRecords_nest (policy : Policy) (earlier : State) (p : Program) :
    (((⟨policy, earlier⟩ : Analyzer).analyze p).1 = .ok () →
      Recorded p ((⟨policy, earlier⟩ : Analyzer).analyze p).2.state p.brackets []) ∧
    ∀ cause, ((⟨policy, earlier⟩ : Analyzer).analyze p).1 = .error cause →
      ∃ before a after index bs opened,
        programActions p = before ++ a :: after ∧
        perform policy before .initial =
          .ok () ((⟨policy, earlier⟩ : Analyzer).analyze p).2.state ∧
        a.Refused policy ((⟨policy, earlier⟩ : Analyzer).analyze p).2.state.arena cause ∧
        a.WorksIn index ∧ bs <+: p.brackets ∧
        Recorded p ((⟨policy, earlier⟩ : Analyzer).analyze p).2.state bs opened ∧
        ((⟨policy, earlier⟩ : Analyzer).analyze p).2.state.arena.Chain (some index) opened ∧
        ∀ i, i ∈ opened ↔
          i ∈ bs.filterMap Bracket.entered? ∧ i ∉ bs.filterMap Bracket.left? := by
  have hcourse := course_programActions p
  rcases perform_cases policy (programActions p) .initial with hok |
    ⟨before, a, after, cause, hsplit, hbefore, hrefusal, hends⟩
  · rw [analyze_of_ok earlier hok]
    exact ⟨fun _ => recorded_after (List.append_nil _).symm hcourse, fun cause h => nomatch h⟩
  · rw [analyze_of_error earlier hends]
    refine ⟨fun h => (nomatch h), ?_⟩
    intro cause' h
    cases h
    have hrefused := Action.refused_of_refusal? hrefusal
    obtain ⟨index, hworks⟩ := hrefused.worksIn
    rw [hsplit] at hcourse
    obtain ⟨opened, bs, more, hbrackets, hdone, hnext⟩ := hcourse.of_append
    have hrecorded := recorded_after hsplit hdone
    have hstacked : Stacked (State.initial.after before).arena opened :=
      Stacked.initial.after hdone
    -- the refused action is about the innermost of the open scopes
    have hinnermost : opened.head? = some index := by
      cases hnext with
      | enterProgram _ => cases hworks
      | enterProcedure _ => cases hworks
      | leave _ => cases hworks
      | inside works _ =>
        cases works <;> cases hworks <;> rfl
    refine ⟨before, a, after, index, bs, opened, hsplit, hbefore, hrefused, hworks, ?_, hrecorded,
      ?_, hrecorded.mem_opened_iff⟩
    · rw [hbrackets]
      exact List.prefix_append bs more
    · rw [← hinnermost]
      exact hstacked.chain

/-- Four scopes are entered and left by the lax analysis; the strict one fails inside the second of
them, so that two are entered and none is left. -/
theorem Analyzer.scopeRecords_nest_samples :
    nestedProcedures.brackets = [.enter 0, .enter 1, .enter 2, .leave 2 (some 1), .leave 1 (some 0),
      .enter 3, .leave 3 (some 0), .leave 0 none] ∧
    Recorded nestedProcedures
      ((⟨.overwrite, .initial⟩ : Analyzer).analyze nestedProcedures).2.state
      nestedProcedures.brackets [] ∧
    ((⟨.reject, .initial⟩ : Analyzer).analyze nestedProcedures).1 =
      .error (.duplicateName "x" "q" 3) ∧
    (∃ index bs opened, bs <+: nestedProcedures.brackets ∧
      Recorded nestedProcedures
        ((⟨.reject, .initial⟩ : Analyzer).analyze nestedProcedures).2.state bs opened ∧
      ((⟨.reject, .initial⟩ : Analyzer).analyze nestedProcedures).2.state.arena.Chain
        (some index) opened) ∧
    ((⟨.reject, .initial⟩ : Analyzer).analyze nestedProcedures).2.state.scopeRecords.map
      Log.Record.message =
        ["Entering scope 'global' for program 'p'", "Entering scope 'q' at level 2"] := by
  have haccepted : ((⟨.overwrite, .initial⟩ : Analyzer).analyze nestedProcedures).1 = .ok () := by
    decide +kernel
  have hrejected : ((⟨.reject, .initial⟩ : Analyzer).analyze nestedProcedures).1 =
      .error (.duplicateName "x" "q" 3) := by decide +kernel
  have hlax := (Analyzer.scopeRecords_nest .overwrite .initial nestedProcedures).1 haccepted
  obtain ⟨-, -, -, index, bs, opened, -, -, -, -, hprefix, hrecorded, hchain, -⟩ :=
    (Analyzer.scopeRecords_nest .reject .initial nestedProcedures).2 _ hrejected
  refine ⟨by decide, hlax, hrejected, ⟨index, bs, opened, hprefix, hrecorded, hchain⟩, ?_⟩
  decide +kernel

end PocketPascal
