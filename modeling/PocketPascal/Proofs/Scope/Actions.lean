import PocketPascal.Proofs.Syntax.Names
import PocketPascal.Scope.Analysis

/-!
# The analysis as a list of actions

The walk of the analysis over a program performs a list of actions that depends on the program
alone: it enters scopes, checks names and types, defines symbols and leaves scopes, and every action
names the scope it is about by an index that is known beforehand. What one action does is said
once: it is refused for a reason that can be read off the arena, and then nothing changes; or it
changes the arena and notes events as `effect` and `events` say, whatever the policy. Every statement
about a whole analysis is an induction on its actions.
-/

namespace PocketPascal

/-- The symbol that a variable or a parameter defines. -/
def Binding.symbol (b : Binding) : Symbol := ⟨b.name.text, .variable b.type.text⟩

/-- The symbol that a declaration defines in the scope around it. -/
def Declaration.symbol : Declaration → Symbol
  | .variable b => b.symbol
  | .procedure name _ parameters _ _ =>
      ⟨name, .procedure (parameters.map fun b => ⟨b.name.text, b.type.text⟩)⟩

theorem Arena.define_of_get?_eq_none {arena : Arena} {index : Nat} (h : arena.get? index = none)
    (symbol : Symbol) : arena.define index symbol = arena := by
  have hsame : ∀ j, (arena.define index symbol).get? j = arena.get? j := by
    intro j
    rw [get?_define]
    by_cases hj : index = j
    · subst hj
      rw [if_pos rfl, h]
      rfl
    · rw [if_neg hj]
  have hscopes : (arena.define index symbol).scopes = arena.scopes := Array.ext_getElem? hsame
  rcases arena with ⟨scopes⟩
  exact congrArg Arena.mk hscopes

namespace Analysis

/-- An action of the walk. -/
inductive Action where
  /-- The scope of the program is created. -/
  | enterProgram (program : String)
  /-- The scope of a procedure is created inside another one. -/
  | enterProcedure (outer : Nat) (name : String)
  /-- A name is checked to be that of a type. -/
  | checkType (index : Nat) (type : Name)
  /-- A symbol is defined. -/
  | define (index : Nat) (symbol : Symbol) (line : Nat)
  /-- A used name is resolved. -/
  | checkName (index : Nat) (name : Name)
  /-- A scope is left. -/
  | leave (index : Nat)

namespace Action

/-- The part of the walk that performs the action. -/
def walk (policy : Policy) : Action → Walk
  | enterProgram program => Analysis.enterProgram program
  | enterProcedure outer name => Analysis.enterProcedure outer name
  | checkType index type => Analysis.checkType index type
  | define index symbol line => Analysis.define policy index symbol line
  | checkName index name => Analysis.checkName index name
  | leave index => Analysis.leave index

/-- Why the action is refused in an arena, if it is. -/
def refusal? (policy : Policy) (arena : Arena) : Action → Option ScopeError
  | checkType index type =>
      if (arena.resolve? index type.text).any (fun found => found.2.isType) then none
      else some (.unknownType type.text type.line)
  | define index symbol line =>
      if policy = .reject then
        (arena.get? index).bind fun scope =>
          (scope.lookup? symbol.name).map fun _ => .duplicateName symbol.name scope.name line
      else none
  | checkName index name =>
      if (arena.resolve? index name.text).isSome then none
      else some (.unknownName name.text name.line)
  | enterProgram _ => none
  | enterProcedure _ _ => none
  | leave _ => none

/-- The arena after the action. -/
def effect (arena : Arena) : Action → Arena
  | enterProgram _ => arena.push globalName 1 none
  | enterProcedure outer name =>
      arena.push name ((arena.get? outer).elim 0 Scope.level + 1) (some outer)
  | define index symbol _ => arena.define index symbol
  | checkType _ _ => arena
  | checkName _ _ => arena
  | leave _ => arena

/-- The events that the action notes. -/
def events (arena : Arena) : Action → List Event
  | enterProgram program => [.enterProgram program]
  | enterProcedure outer name =>
      [.enterProcedure arena.size name ((arena.get? outer).elim 0 Scope.level + 1)]
  | define index symbol line =>
      (arena.get? index).elim [] fun scope =>
        .define symbol scope.name ::
          ((scope.lookup? symbol.name).map fun previous =>
            Event.replace previous scope.name line).toList
  | checkName index name =>
      ((arena.resolve? index name.text).bind fun found =>
        (arena.get? found.1).map fun scope =>
          Event.resolve ⟨name.text, name.line, scope.name, scope.level⟩).toList
  | leave index =>
      ((arena.get? index).map fun scope =>
        Event.leave index scope ((scope.parent.bind arena.get?).map Scope.name)).toList
  | checkType _ _ => []

/-- The state after the action. -/
def step (s : State) (a : Action) : State :=
  ⟨a.effect s.arena, s.events ++ (a.events s.arena).toArray⟩

end Action

/-! ## Refusals -/

/-- Why an action is refused in an arena. -/
inductive Action.Refused (policy : Policy) (arena : Arena) : Action → ScopeError → Prop where
  /-- What has the name is no type, or there is no such thing. -/
  | noType {index : Nat} {type : Name}
      (none : (arena.resolve? index type.text).any (fun found => found.2.isType) = false) :
      Refused policy arena (.checkType index type) (.unknownType type.text type.line)
  /-- The scope has a symbol of the name, and the policy is strict. -/
  | repeated {index line : Nat} {symbol : Symbol} {scope : Scope} (strict : policy = .reject)
      (found : arena.get? index = some scope) (known : (scope.lookup? symbol.name).isSome) :
      Refused policy arena (.define index symbol line)
        (.duplicateName symbol.name scope.name line)
  /-- No visible scope has a symbol of the name. -/
  | unknown {index : Nat} {name : Name} (none : arena.resolve? index name.text = none) :
      Refused policy arena (.checkName index name) (.unknownName name.text name.line)

theorem Action.refused_of_refusal? {policy : Policy} {arena : Arena} {a : Action}
    {cause : ScopeError} (h : a.refusal? policy arena = some cause) :
    a.Refused policy arena cause := by
  cases a with
  | checkType index type =>
    obtain ⟨htype, h⟩ := Option.ite_none_left_eq_some.1 h
    cases h
    exact .noType (Bool.eq_false_iff.2 htype)
  | define index symbol line =>
    obtain ⟨hstrict, h⟩ := Option.ite_none_right_eq_some.1 h
    obtain ⟨scope, hfound, h⟩ := Option.bind_eq_some_iff.1 h
    obtain ⟨previous, hprevious, rfl⟩ := Option.map_eq_some_iff.1 h
    exact .repeated hstrict hfound (Option.isSome_of_eq_some hprevious)
  | checkName index name =>
    obtain ⟨hnone, h⟩ := Option.ite_none_left_eq_some.1 h
    cases h
    exact .unknown (Option.not_isSome_iff_eq_none.1 hnone)
  | enterProgram program => cases h
  | enterProcedure outer name => cases h
  | leave index => cases h

/-! ## What one action does -/

theorem get_bind (part : State → Walk) (s : State) :
    (get >>= part : Walk) s = part s s := rfl

theorem inScope_eq (index : Nat) (part : Scope → Walk) (s : State) :
    inScope index part s =
      match s.arena.get? index with
      | some scope => part scope s
      | none => .ok () s := by
  rw [inScope, get_bind]
  cases s.arena.get? index <;> rfl

/-- The walk of an action that is refused leaves the state as it is, and that of any other action
has its effect. -/
def Action.Performed (policy : Policy) (a : Action) (s : State) : Prop :=
  a.walk policy s =
    match a.refusal? policy s.arena with
    | some cause => .error cause s
    | none => .ok () (a.step s)

namespace Action

theorem step_of_quiet {a : Action} {s : State} (he : a.effect s.arena = s.arena)
    (hv : a.events s.arena = []) : a.step s = s := by
  rw [step, he, hv]
  show (⟨s.arena, s.events ++ #[]⟩ : State) = s
  rw [Array.append_empty]

variable (policy : Policy) (index : Nat) (s : State)

theorem performed_checkType (type : Name) : (checkType index type).Performed policy s := by
  rw [Performed, walk, step_of_quiet rfl rfl, refusal?, checkType_eq]
  by_cases htype : (s.arena.resolve? index type.text).any (fun found => found.2.isType) = true
  · rw [if_pos htype, if_pos htype]
  · rw [if_neg htype, if_neg htype]

theorem performed_checkName (name : Name) : (checkName index name).Performed policy s := by
  rw [Performed, walk, Analysis.checkName, get_bind, refusal?]
  cases hr : s.arena.resolve? index name.text with
  | none => rfl
  | some found =>
    simp only [Option.isSome_some, if_true]
    rw [inScope_eq]
    cases hget : s.arena.get? found.1 with
    | none =>
      rw [step_of_quiet rfl (by simp [events, hr, hget])]
    | some scope =>
      have hevents : (checkName index name).events s.arena =
          [.resolve ⟨name.text, name.line, scope.name, scope.level⟩] := by
        simp [events, hr, hget]
      rw [step, hevents]
      rfl

theorem performed_leave : (leave index).Performed policy s := by
  have hwalk : (leave index).walk policy s =
      inScope index (fun scope =>
        note (.leave index scope ((scope.parent.bind s.arena.get?).map Scope.name))) s := rfl
  rw [Performed, hwalk, refusal?, inScope_eq]
  cases hget : s.arena.get? index with
  | none => rw [step_of_quiet rfl (by simp [events, hget])]
  | some scope =>
    have hevents : (leave index).events s.arena =
        [.leave index scope ((scope.parent.bind s.arena.get?).map Scope.name)] := by
      simp [events, hget]
    rw [step, hevents]
    rfl

theorem performed_define (symbol : Symbol) (line : Nat) :
    (define index symbol line).Performed policy s := by
  rw [Performed, walk, Analysis.define, inScope_eq, refusal?]
  cases hget : s.arena.get? index with
  | none =>
    have hstep : (define index symbol line).step s = s :=
      step_of_quiet (Arena.define_of_get?_eq_none hget symbol) (by simp [events, hget])
    rw [hstep]
    by_cases hpolicy : policy = .reject <;> simp [hpolicy]
  | some scope =>
    cases hlook : scope.lookup? symbol.name with
    | none =>
      have hevents : (define index symbol line).events s.arena = [.define symbol scope.name] := by
        simp [events, hget, hlook]
      rw [step, hevents]
      by_cases hpolicy : policy = .reject
      · simp only [hpolicy, hlook, Option.isSome_none, if_true, Option.bind_some, Option.map_none]
        rfl
      · simp only [hpolicy, hlook, false_and, if_false]
        rfl
    | some previous =>
      have hevents : (define index symbol line).events s.arena =
          [.define symbol scope.name, .replace previous scope.name line] := by
        simp [events, hget, hlook]
      rw [step, hevents]
      by_cases hpolicy : policy = .reject
      · simp only [hpolicy, hlook, Option.isSome_some, and_self, if_true, Option.bind_some,
          Option.map_some]
        rfl
      · simp only [hpolicy, hlook, false_and, if_false]
        rfl

end Action

/-- An action that is refused changes nothing; any other one has its effect. -/
theorem Action.performed (policy : Policy) (a : Action) (s : State) : a.Performed policy s := by
  cases a with
  | enterProgram program => rfl
  | enterProcedure outer name => rfl
  | checkType index type => exact performed_checkType policy index s type
  | define index symbol line => exact performed_define policy index s symbol line
  | checkName index name => exact performed_checkName policy index s name
  | leave index => exact performed_leave policy index s

/-! ## What a list of actions does -/

/-- Performs actions one after another. -/
def perform (policy : Policy) : List Action → Walk
  | [] => pure ()
  | first :: more => do
      first.walk policy
      perform policy more

/-- The state after actions of which none is refused. -/
def State.after (s : State) (as : List Action) : State := as.foldl Action.step s

/-- The scopes that actions create, in order: their names and the scopes around them. -/
def entries (as : List Action) : List (String × Option Nat) :=
  as.filterMap fun a =>
    match a with
    | .enterProgram _ => some (globalName, none)
    | .enterProcedure outer name => some (name, some outer)
    | _ => none

section

variable {policy : Policy} {as bs : List Action} {s s' : State} {cause : ScopeError}

@[simp] theorem State.after_append : s.after (as ++ bs) = (s.after as).after bs :=
  List.foldl_append

theorem perform_append :
    perform policy (as ++ bs) s =
      match perform policy as s with
      | .ok _ s' => perform policy bs s'
      | .error cause s' => .error cause s' := by
  induction as generalizing s with
  | nil => rfl
  | cons a more ih =>
    show EStateM.bind (a.walk policy) (fun _ => perform policy (more ++ bs)) s =
      match EStateM.bind (a.walk policy) (fun _ => perform policy more) s with
      | .ok _ s' => perform policy bs s'
      | .error cause s' => .error cause s'
    simp only [EStateM.bind]
    cases a.walk policy s with
    | ok _ s' => exact ih
    | error cause s' => rfl

theorem perform_cons_of_refused {a : Action} (h : a.refusal? policy s.arena = some cause) :
    perform policy (a :: as) s = .error cause s := by
  have hwalk := a.performed policy s
  rw [Action.Performed, h] at hwalk
  show EStateM.bind (a.walk policy) (fun _ => perform policy as) s = _
  rw [EStateM.bind, hwalk]

theorem perform_cons_of_accepted {a : Action} (h : a.refusal? policy s.arena = none) :
    perform policy (a :: as) s = perform policy as (a.step s) := by
  have hwalk := a.performed policy s
  rw [Action.Performed, h] at hwalk
  show EStateM.bind (a.walk policy) (fun _ => perform policy as) s = _
  rw [EStateM.bind, hwalk]

/-- Either no action is refused, or the first one that is ends the walk in the state before it. -/
theorem perform_cases (policy : Policy) (as : List Action) (s : State) :
    perform policy as s = .ok () (s.after as) ∨
      ∃ before a after cause, as = before ++ a :: after ∧
        perform policy before s = .ok () (s.after before) ∧
        a.refusal? policy (s.after before).arena = some cause ∧
        perform policy as s = .error cause (s.after before) := by
  induction as generalizing s with
  | nil => exact .inl rfl
  | cons a more ih =>
    cases hr : a.refusal? policy s.arena with
    | some cause => exact .inr ⟨[], a, more, cause, rfl, rfl, hr, perform_cons_of_refused hr⟩
    | none =>
      rw [perform_cons_of_accepted hr]
      rcases ih (a.step s) with hok | ⟨before, b, after, cause, rfl, hbefore, hb, herror⟩
      · exact .inl hok
      · refine .inr ⟨a :: before, b, after, cause, rfl, ?_, hb, herror⟩
        rw [perform_cons_of_accepted hr]
        exact hbefore

theorem eq_after_of_perform (h : perform policy as s = .ok () s') : s' = s.after as := by
  rcases perform_cases policy as s with hok | ⟨before, a, after, cause, -, -, -, herror⟩
  · rw [hok] at h
    cases h
    rfl
  · rw [herror] at h
    cases h

theorem size_after : (s.after as).arena.size = s.arena.size + (entries as).length := by
  induction as generalizing s with
  | nil => rfl
  | cons a more ih =>
    have hcons : s.after (a :: more) = (a.step s).after more := rfl
    rw [hcons, ih]
    cases a with
    | enterProgram program =>
      simp only [Action.step, Action.effect, Arena.size_push, entries, List.filterMap_cons,
        List.length_cons]
      omega
    | enterProcedure outer name =>
      simp only [Action.step, Action.effect, Arena.size_push, entries, List.filterMap_cons,
        List.length_cons]
      omega
    | define index symbol line =>
      simp only [Action.step, Action.effect, Arena.size_define, entries, List.filterMap_cons]
    | checkType index type => rfl
    | checkName index name => rfl
    | leave index => rfl

theorem size_step (a : Action) (s : State) :
    (a.step s).arena.size = s.arena.size + (entries [a]).length := by
  have hafter : (s.after [a]).arena.size = s.arena.size + (entries [a]).length := size_after
  exact hafter

@[simp] theorem entries_append : entries (as ++ bs) = entries as ++ entries bs :=
  List.filterMap_append

theorem entries_cons (a : Action) : entries (a :: as) = entries [a] ++ entries as := by
  rw [← List.singleton_append, entries_append]

end

/-! ## The actions of a program -/

/-- The actions that declare a variable or a parameter in the scope with the given index. -/
def bindingActions (index : Nat) (b : Binding) : List Action :=
  [.checkType index b.type, .define index b.symbol b.name.line]

/-- The actions that check the names of assignments, one assignment after another. -/
def bodyActions (index : Nat) (as : List Assignment) : List Action :=
  (as.flatMap Assignment.names).map (.checkName index)

mutual

/-- The actions for a declaration in the scope `outer`, where `next` is the index of the next scope
that is created. -/
def declarationActions (outer next : Nat) : Declaration → List Action
  | .variable b => bindingActions outer b
  | .procedure name line parameters declarations body =>
      .define outer ⟨name, .procedure (signature parameters)⟩ line :: .enterProcedure outer name ::
        (parameters.flatMap (bindingActions next) ++
          (declarationsActions next (next + 1) declarations ++
            (bodyActions next (Statement.assignmentsOfList body) ++ [.leave next])))

/-- The actions for declarations, one after another. -/
def declarationsActions (outer next : Nat) : List Declaration → List Action
  | [] => []
  | first :: more =>
      declarationActions outer next first ++
        declarationsActions outer
          (next + (entries (declarationActions outer next first)).length) more

end

/-- The actions for a program. -/
def programActions (p : Program) : List Action :=
  .enterProgram p.name ::
    (declarationsActions 0 1 p.block.declarations ++ (bodyActions 0 p.assignments ++ [.leave 0]))

/-- The actions for a procedure: it is defined and entered, then come its parameters and its
declarations, and in the end its body is checked and its scope is left. -/
theorem declarationActions_procedure (outer next : Nat) (name : String) (line : Nat)
    (parameters : List Binding) (declarations : List Declaration) (body : List Statement) :
    declarationActions outer next (.procedure name line parameters declarations body) =
      [.define outer ⟨name, .procedure (signature parameters)⟩ line, .enterProcedure outer name] ++
        (parameters.flatMap (bindingActions next) ++
          (declarationsActions next (next + 1) declarations ++
            (bodyActions next (Statement.assignmentsOfList body) ++ [.leave next]))) := by
  rw [declarationActions]
  rfl

/-! ## The walk performs the actions -/

/-- On every arena of the given size the part of the walk performs the actions. -/
def Performs (policy : Policy) (size : Nat) (walk : Walk) (as : List Action) : Prop :=
  ∀ s : State, s.arena.size = size → walk s = perform policy as s

section

variable {policy : Policy} {size index : Nat}

theorem Performs.done : Performs policy size (pure ()) [] := fun _ _ => rfl

theorem Performs.single (a : Action) : Performs policy size (a.walk policy) [a] := by
  intro s _
  show a.walk policy s = EStateM.bind (a.walk policy) (fun _ => pure ()) s
  rw [EStateM.bind]
  cases a.walk policy s <;> rfl

theorem Performs.bind {walk next : Walk} {as bs : List Action}
    (first : Performs policy size walk as)
    (second : Performs policy (size + (entries as).length) next bs) :
    Performs policy size (walk >>= fun _ => next) (as ++ bs) := by
  intro s hs
  show EStateM.bind walk (fun _ => next) s = _
  rw [EStateM.bind, first s hs, perform_append]
  cases h : perform policy as s with
  | error cause s' => rfl
  | ok _ s' =>
    have hsize : s'.arena.size = size + (entries as).length := by
      rw [eq_after_of_perform h, size_after, hs]
    exact second s' hsize

theorem entries_names (index : Nat) (names : List Name) :
    entries (names.map (.checkName index)) = [] := by
  rw [entries, List.filterMap_map, List.filterMap_eq_nil_iff]
  intro name _
  rfl

theorem Performs.names {walk next : Walk} {names names' : List Name}
    (first : Performs policy size walk (names.map (.checkName index)))
    (second : Performs policy size next (names'.map (.checkName index))) :
    Performs policy size (walk >>= fun _ => next) ((names ++ names').map (.checkName index)) := by
  rw [List.map_append]
  refine first.bind ?_
  rw [entries_names]
  exact second

theorem performs_checkExpr (e : Expr) :
    Performs policy size (checkExpr index e) (e.names.map (.checkName index)) := by
  induction e with
  | literal value line => exact .done
  | «variable» name => exact .single (.checkName index name)
  | unary op operand line ih => exact ih
  | binary op left right line ihl ihr => exact ihl.names ihr

mutual

theorem performs_checkStatement (s : Statement) :
    Performs policy size (checkStatement index s) (bodyActions index s.assignments) := by
  cases s with
  | compound body =>
    rw [checkStatement, Statement.assignments]
    exact performs_checkStatements body
  | assign target value line =>
    have htarget : Performs policy size (checkName index target)
        ([target].map (.checkName index)) := .single (.checkName index target)
    rw [checkStatement, Statement.assignments, bodyActions, List.flatMap_singleton]
    exact htarget.names (performs_checkExpr value)
  | empty =>
    rw [checkStatement, Statement.assignments]
    exact .done

theorem performs_checkStatements (body : List Statement) :
    Performs policy size (checkStatements index body)
      (bodyActions index (Statement.assignmentsOfList body)) := by
  cases body with
  | nil =>
    rw [checkStatements, Statement.assignmentsOfList]
    exact .done
  | cons first more =>
    rw [checkStatements, Statement.assignmentsOfList, bodyActions, List.flatMap_append]
    exact (performs_checkStatement first).names (performs_checkStatements more)

end

theorem performs_declareBinding (b : Binding) :
    Performs policy size (declareBinding policy index b) (bindingActions index b) := by
  have htype : Performs policy size (checkType index b.type) [.checkType index b.type] :=
    .single (.checkType index b.type)
  rw [declareBinding_eq]
  exact htype.bind (.single (.define index b.symbol b.name.line))

theorem entries_bindings (index : Nat) (bs : List Binding) :
    entries (bs.flatMap (bindingActions index)) = [] := by
  induction bs with
  | nil => rfl
  | cons b more ih =>
    rw [List.flatMap_cons, entries_append, ih]
    rfl

theorem performs_declareBindings (bs : List Binding) :
    Performs policy size (declareBindings policy index bs) (bs.flatMap (bindingActions index)) := by
  induction bs with
  | nil => exact .done
  | cons first more ih =>
    rw [List.flatMap_cons]
    exact (performs_declareBinding first).bind ih

theorem Performs.looking {part : State → Walk} {as : List Action}
    (h : ∀ s : State, s.arena.size = size → Performs policy size (part s) as) :
    Performs policy size (get >>= part) as :=
  fun s hs => h s hs s hs

theorem performs_body (body : List Statement) :
    Performs policy size (checkStatements index body >>= fun _ => leave index)
      (bodyActions index (Statement.assignmentsOfList body) ++ [.leave index]) :=
  (performs_checkStatements body).bind (.single (.leave index))

mutual

theorem performs_checkDeclaration (size index : Nat) (d : Declaration) :
    Performs policy size (checkDeclaration policy index d) (declarationActions index size d) := by
  cases d with
  | «variable» b =>
    rw [checkDeclaration, declarationActions]
    exact performs_declareBinding b
  | procedure name line parameters declarations body =>
    have hdefine : Performs policy size
        (define policy index ⟨name, .procedure (signature parameters)⟩ line)
        [.define index ⟨name, .procedure (signature parameters)⟩ line] := .single (.define ..)
    have henter : Performs policy size (enterProcedure index name) [.enterProcedure index name] :=
      .single (.enterProcedure index name)
    rw [checkDeclaration, declarationActions]
    refine hdefine.bind (.looking fun s hs => ?_)
    -- the scope that is created next has the index `size`
    have hsize : s.arena.size = size := hs
    rw [hsize]
    refine henter.bind ((performs_declareBindings parameters).bind ?_)
    rw [entries_bindings]
    exact (performs_checkDeclarations (size + 1) size declarations).bind (performs_body body)

theorem performs_checkDeclarations (size index : Nat) (ds : List Declaration) :
    Performs policy size (checkDeclarations policy index ds)
      (declarationsActions index size ds) := by
  cases ds with
  | nil =>
    rw [checkDeclarations, declarationsActions]
    exact .done
  | cons first more =>
    rw [checkDeclarations, declarationsActions]
    exact (performs_checkDeclaration size index first).bind
      (performs_checkDeclarations _ index more)

end

end

/-- The analysis of a program performs its actions. -/
theorem checkProgram_eq_perform (policy : Policy) (p : Program) :
    checkProgram policy p .initial = perform policy (programActions p) .initial := by
  have henter : Performs policy 0 (enterProgram p.name) [.enterProgram p.name] :=
    .single (.enterProgram p.name)
  have hall : Performs policy 0 (checkProgram policy p) (programActions p) :=
    henter.bind ((performs_checkDeclarations 1 0 p.block.declarations).bind
      (performs_body p.block.body))
  exact hall .initial rfl

end Analysis

end PocketPascal
