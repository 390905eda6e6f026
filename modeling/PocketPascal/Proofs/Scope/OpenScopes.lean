import PocketPascal.Proofs.Scope.Nearest

/-!
# Open scopes

An analysis enters and leaves the scopes of a program as the procedures are nested, and everything
it does in between it does in the innermost scope that is open. So the open scopes are always the
chain of scopes around the innermost one, the brackets of entering and leaving are balanced, and a
scope that has been left is never changed again.
-/

namespace PocketPascal

/-- A scope is entered or left. -/
inductive Bracket where
  /-- The scope with an index is entered. -/
  | enter (index : Nat)
  /-- The scope with an index is left; `outer` is the scope around it, if there is one. -/
  | leave (index : Nat) (outer : Option Nat)
  deriving DecidableEq, Repr

namespace Bracket

/-- The scope that is entered, if one is. -/
def entered? : Bracket → Option Nat
  | enter index => some index
  | leave _ _ => none

/-- The scope that is left, if one is. -/
def left? : Bracket → Option Nat
  | enter _ => none
  | leave index _ => some index

/-- The scopes that are open after brackets, the innermost one first, where others are open before
them. Only the innermost scope can be left, and the next one must be the one around it. -/
def nest : List Nat → List Bracket → Option (List Nat)
  | stack, [] => some stack
  | stack, enter i :: more => nest (i :: stack) more
  | i :: around, leave j outer :: more =>
      if i = j ∧ around.head? = outer then nest around more else none
  | [], leave _ _ :: _ => none

/-- Every scope that was open or has been entered has been left or is open. -/
theorem perm_of_nest {stack stack' : List Nat} {bs : List Bracket}
    (h : nest stack bs = some stack') :
    (stack ++ bs.filterMap entered?).Perm (bs.filterMap left? ++ stack') := by
  induction bs generalizing stack with
  | nil =>
    cases h
    rw [List.filterMap_nil, List.filterMap_nil, List.append_nil, List.nil_append]
  | cons b more ih =>
    cases b with
    | enter i =>
      have hmore := ih h
      have hentered : (enter i :: more).filterMap entered? = i :: more.filterMap entered? := rfl
      rw [hentered]
      exact List.perm_middle.trans hmore
    | leave j outer =>
      cases stack with
      | nil => cases h
      | cons i around =>
        unfold nest at h
        split at h
        · rename_i hsame
          obtain ⟨rfl, -⟩ := hsame
          exact (ih h).cons i
        · cases h

end Bracket

/-! ## The brackets of a program -/

mutual

/-- The brackets of a declaration in the scope `outer`, where `next` is the index of the next scope:
a procedure is entered, then come the brackets of the procedures in it, and it is left. -/
def Declaration.brackets (outer next : Nat) : Declaration → List Bracket
  | .variable _ => []
  | .procedure _ _ _ declarations _ =>
      .enter next ::
        (Declaration.bracketsOfList next (next + 1) declarations ++ [.leave next (some outer)])

/-- The brackets of declarations, one after another. -/
def Declaration.bracketsOfList (outer next : Nat) : List Declaration → List Bracket
  | [] => []
  | first :: more =>
      first.brackets outer next ++
        Declaration.bracketsOfList outer (next + (first.outlines outer next).length) more

end

/-- The brackets of a program: those of its procedures between its own ones. -/
def Program.brackets (p : Program) : List Bracket :=
  .enter 0 :: (Declaration.bracketsOfList 0 1 p.block.declarations ++ [.leave 0 none])

theorem Arena.Chain.head? {a : Arena} {start : Option Nat} {chain : List Nat}
    (h : a.Chain start chain) : chain.head? = start := by
  cases h <;> rfl

/-- A later state of a scope: it may have other symbols, but it is the same scope. -/
structure Scope.Became (s t : Scope) : Prop where
  /-- The name stays. -/
  name : t.name = s.name
  /-- The level stays. -/
  level : t.level = s.level
  /-- The scope around it stays. -/
  parent : t.parent = s.parent

namespace Analysis

/-- The action is about names of the scope with an index. -/
inductive Action.WorksIn (index : Nat) : Action → Prop where
  | checkType (type : Name) : WorksIn index (.checkType index type)
  | define (symbol : Symbol) (line : Nat) : WorksIn index (.define index symbol line)
  | checkName (name : Name) : WorksIn index (.checkName index name)

theorem Action.Refused.worksIn {policy : Policy} {arena : Arena} {a : Action} {cause : ScopeError}
    (h : a.Refused policy arena cause) : ∃ index, a.WorksIn index := by
  cases h with
  | noType _ => exact ⟨_, .checkType _⟩
  | repeated _ _ _ => exact ⟨_, .define _ _⟩
  | unknown _ => exact ⟨_, .checkName _⟩

/-- Actions that begin where a number of scopes have been created and some of them are open, the
innermost one first, with the brackets of these actions and the scopes that are open in the end. A
scope is created inside the innermost open one, which then is the new one; only the innermost one is
left; and every other action is about the innermost one. -/
inductive Course : Nat → List Nat → List Action → List Bracket → List Nat → Prop where
  /-- No action. -/
  | done (size : Nat) (stack : List Nat) : Course size stack [] [] stack
  /-- The program is entered, and then come the other actions. -/
  | enterProgram {size : Nat} {program : String} {more : List Action} {bs : List Bracket}
      {stack' : List Nat} (rest : Course (size + 1) [size] more bs stack') :
      Course size [] (.enterProgram program :: more) (.enter size :: bs) stack'
  /-- A procedure is entered from the innermost scope. -/
  | enterProcedure {size outer : Nat} {name : String} {more : List Action} {bs : List Bracket}
      {stack stack' : List Nat} (rest : Course (size + 1) (size :: outer :: stack) more bs stack') :
      Course size (outer :: stack) (.enterProcedure outer name :: more) (.enter size :: bs) stack'
  /-- The innermost scope is left. -/
  | leave {size index : Nat} {more : List Action} {bs : List Bracket} {stack stack' : List Nat}
      (rest : Course size stack more bs stack') :
      Course size (index :: stack) (.leave index :: more) (.leave index stack.head? :: bs) stack'
  /-- Something is done in the innermost scope. -/
  | inside {size index : Nat} {a : Action} {more : List Action} {bs : List Bracket}
      {stack stack' : List Nat} (works : a.WorksIn index)
      (rest : Course size (index :: stack) more bs stack') :
      Course size (index :: stack) (a :: more) bs stack'

theorem Action.WorksIn.entries {index : Nat} {a : Action} (h : a.WorksIn index) :
    entries [a] = [] := by
  cases h <;> rfl

namespace Course

variable {size : Nat} {stack stack₁ stack₂ : List Nat} {as as' : List Action}
  {bs bs' : List Bracket}

theorem append (h : Course size stack as bs stack₁)
    (h' : Course (size + (entries as).length) stack₁ as' bs' stack₂) :
    Course size stack (as ++ as') (bs ++ bs') stack₂ := by
  induction h with
  | done size stack => exact h'
  | @enterProgram size program more bs stack₁ rest ih =>
    have hlength : size + (entries (.enterProgram program :: more)).length =
        size + 1 + (entries more).length := by
      rw [entries_cons, List.length_append, ← Nat.add_assoc]
      rfl
    rw [hlength] at h'
    exact .enterProgram (ih h')
  | @enterProcedure size outer name more bs stack stack₁ rest ih =>
    have hlength : size + (entries (.enterProcedure outer name :: more)).length =
        size + 1 + (entries more).length := by
      rw [entries_cons, List.length_append, ← Nat.add_assoc]
      rfl
    rw [hlength] at h'
    exact .enterProcedure (ih h')
  | @leave size index more bs stack stack₁ rest ih => exact .leave (ih h')
  | @inside size index a more bs stack stack₁ works rest ih =>
    rw [entries_cons, works.entries, List.nil_append] at h'
    exact .inside works (ih h')

theorem of_append (h : Course size stack (as ++ as') bs stack₂) :
    ∃ stack₁ before after, bs = before ++ after ∧ Course size stack as before stack₁ ∧
      Course (size + (entries as).length) stack₁ as' after stack₂ := by
  induction as generalizing size stack bs with
  | nil => exact ⟨stack, [], bs, rfl, .done size stack, h⟩
  | cons a more ih =>
    cases h with
    | enterProgram rest =>
      obtain ⟨stack₁, before, after, rfl, hbefore, hafter⟩ := ih rest
      refine ⟨stack₁, _, after, rfl, .enterProgram hbefore, ?_⟩
      rw [entries_cons, List.length_append, ← Nat.add_assoc]
      exact hafter
    | enterProcedure rest =>
      obtain ⟨stack₁, before, after, rfl, hbefore, hafter⟩ := ih rest
      refine ⟨stack₁, _, after, rfl, .enterProcedure hbefore, ?_⟩
      rw [entries_cons, List.length_append, ← Nat.add_assoc]
      exact hafter
    | leave rest =>
      obtain ⟨stack₁, before, after, rfl, hbefore, hafter⟩ := ih rest
      exact ⟨stack₁, _, after, rfl, .leave hbefore, hafter⟩
    | inside works rest =>
      obtain ⟨stack₁, before, after, rfl, hbefore, hafter⟩ := ih rest
      refine ⟨stack₁, before, after, rfl, .inside works hbefore, ?_⟩
      rw [entries_cons, works.entries, List.nil_append]
      exact hafter

/-- The brackets of actions open and close one scope after another. -/
theorem nest (h : Course size stack as bs stack₁) : Bracket.nest stack bs = some stack₁ := by
  induction h with
  | done size stack =>
    unfold Bracket.nest
    rfl
  | enterProgram rest ih => exact ih
  | enterProcedure rest ih => exact ih
  | leave rest ih =>
    unfold Bracket.nest
    rw [if_pos ⟨rfl, rfl⟩]
    exact ih
  | inside works rest ih => exact ih

/-- Scopes are entered in the order of their indexes. -/
theorem entered (h : Course size stack as bs stack₁) :
    bs.filterMap Bracket.entered? = List.range' size (entries as).length := by
  induction h with
  | done size stack => rfl
  | @enterProgram size program more bs stack₁ rest ih =>
    have hbs : (Bracket.enter size :: bs).filterMap Bracket.entered? =
        size :: bs.filterMap Bracket.entered? := rfl
    rw [hbs, ih]
    rfl
  | @enterProcedure size outer name more bs stack stack₁ rest ih =>
    have hbs : (Bracket.enter size :: bs).filterMap Bracket.entered? =
        size :: bs.filterMap Bracket.entered? := rfl
    rw [hbs, ih]
    rfl
  | @leave size index more bs stack stack₁ rest ih => exact ih
  | @inside size index a more bs stack stack₁ works rest ih =>
    rw [entries_cons, works.entries, List.nil_append]
    exact ih

/-- Nothing is defined in a scope that is not open. -/
theorem definedIn_of_not_mem (h : Course size stack as bs stack₁) {i : Nat} (hi : i < size)
    (hclosed : i ∉ stack) : definedIn i as = [] := by
  induction h with
  | done size stack => rfl
  | @enterProgram size program more bs stack₁ rest ih =>
    have hne : i ≠ size := by omega
    exact ih (by omega) fun hmem => hne (List.mem_singleton.1 hmem)
  | @enterProcedure size outer name more bs stack stack₁ rest ih =>
    refine ih (by omega) ?_
    intro hmem
    rcases List.mem_cons.1 hmem with rfl | hmem
    · omega
    · exact hclosed hmem
  | @leave size index more bs stack stack₁ rest ih =>
    exact ih hi fun hmem => hclosed (List.mem_cons_of_mem index hmem)
  | @inside size index a more bs stack stack₁ works rest ih =>
    have hmore := ih hi hclosed
    have hne : index ≠ i := by
      rintro rfl
      exact hclosed List.mem_cons_self
    have hone : definedIn i [a] = [] := by
      cases works with
      | checkType type => rfl
      | define symbol line => simp [definedIn, hne]
      | checkName name => rfl
    rw [← List.singleton_append, definedIn_append, hone, hmore]
    rfl

end Course

/-! ## The course of a program -/

section

variable {size index : Nat} {stack : List Nat}

theorem course_names (names : List Name) :
    Course size (index :: stack) (names.map (.checkName index)) [] (index :: stack) := by
  induction names with
  | nil => exact .done size (index :: stack)
  | cons name more ih => exact .inside (.checkName name) ih

theorem course_bindings (bs : List Binding) :
    Course size (index :: stack) (bs.flatMap (bindingActions index)) [] (index :: stack) := by
  induction bs with
  | nil => exact .done size (index :: stack)
  | cons b more ih =>
    rw [List.flatMap_cons]
    exact .inside (.checkType b.type) (.inside (.define b.symbol b.name.line) ih)

theorem course_body (as : List Assignment) :
    Course size (index :: stack) (bodyActions index as ++ [.leave index])
      [.leave index stack.head?] stack := by
  unfold bodyActions
  exact (course_names _).append (.leave (.done _ stack))

end

mutual

theorem course_declarationActions (outer next : Nat) (stack : List Nat) (d : Declaration) :
    Course next (outer :: stack) (declarationActions outer next d) (d.brackets outer next)
      (outer :: stack) := by
  cases d with
  | «variable» b =>
    have hone : Course next (outer :: stack) ([b].flatMap (bindingActions outer)) []
        (outer :: stack) := course_bindings [b]
    rw [List.flatMap_singleton] at hone
    rw [declarationActions, Declaration.brackets]
    exact hone
  | procedure name line parameters declarations body =>
    have hparameters : Course (next + 1) (next :: outer :: stack)
        (parameters.flatMap (bindingActions next)) [] (next :: outer :: stack) :=
      course_bindings parameters
    have hinner : Course (next + 1 + (entries (parameters.flatMap (bindingActions next))).length)
        (next :: outer :: stack) (declarationsActions next (next + 1) declarations)
        (Declaration.bracketsOfList next (next + 1) declarations) (next :: outer :: stack) := by
      rw [entries_bindings]
      exact course_declarationsActions next (next + 1) (outer :: stack) declarations
    rw [declarationActions_procedure, Declaration.brackets]
    refine .inside (.define _ line) (.enterProcedure ?_)
    exact hparameters.append (hinner.append (course_body _))

theorem course_declarationsActions (outer next : Nat) (stack : List Nat) (ds : List Declaration) :
    Course next (outer :: stack) (declarationsActions outer next ds)
      (Declaration.bracketsOfList outer next ds) (outer :: stack) := by
  cases ds with
  | nil =>
    rw [declarationsActions, Declaration.bracketsOfList]
    exact .done next (outer :: stack)
  | cons first more =>
    have hfirst := course_declarationActions outer next stack first
    have hlength : (entries (declarationActions outer next first)).length =
        (first.outlines outer next).length := by rw [entries_declarationActions, List.length_map]
    rw [declarationsActions, Declaration.bracketsOfList, ← hlength]
    exact hfirst.append (course_declarationsActions outer _ stack more)

end

/-- The actions of a program enter and leave its scopes as its procedures are nested. -/
theorem course_programActions (p : Program) : Course 0 [] (programActions p) p.brackets [] := by
  have hdeclarations := course_declarationsActions 0 1 [] p.block.declarations
  unfold programActions Program.brackets
  exact .enterProgram (hdeclarations.append (course_body p.assignments))

/-! ## Scopes along the actions -/

section

variable {s : State} {as : List Action} {i : Nat} {scope : Scope}

/-- A scope stays the same one, whatever is done. -/
theorem became_after (as : List Action) (h : s.arena.get? i = some scope) :
    ∃ scope', (s.after as).arena.get? i = some scope' ∧ scope.Became scope' := by
  induction as generalizing s scope with
  | nil => exact ⟨scope, h, rfl, rfl, rfl⟩
  | cons a more ih =>
    have hi : i < s.arena.size := Arena.lt_size_of_get? h
    obtain ⟨scope₁, h₁, hbecame₁⟩ :
        ∃ scope₁, (a.step s).arena.get? i = some scope₁ ∧ scope.Became scope₁ := by
      cases a with
      | enterProgram program =>
        exact ⟨scope, (Arena.get?_push_of_lt hi _ _ _).trans h, rfl, rfl, rfl⟩
      | enterProcedure outer name =>
        exact ⟨scope, (Arena.get?_push_of_lt hi _ _ _).trans h, rfl, rfl, rfl⟩
      | define index symbol line =>
        have hget : (s.arena.define index symbol).get? i =
            if index = i then some (scope.define symbol) else some scope := by
          rw [Arena.get?_define, h]
          rfl
        by_cases hindex : index = i
        · rw [if_pos hindex] at hget
          exact ⟨_, hget, rfl, rfl, rfl⟩
        · rw [if_neg hindex] at hget
          exact ⟨_, hget, rfl, rfl, rfl⟩
      | checkType index type => exact ⟨scope, h, rfl, rfl, rfl⟩
      | checkName index name => exact ⟨scope, h, rfl, rfl, rfl⟩
      | leave index => exact ⟨scope, h, rfl, rfl, rfl⟩
    obtain ⟨scope₂, h₂, hbecame₂⟩ := ih h₁
    exact ⟨scope₂, h₂, hbecame₂.name.trans hbecame₁.name, hbecame₂.level.trans hbecame₁.level,
      hbecame₂.parent.trans hbecame₁.parent⟩

/-- A scope in which nothing is defined stays as it is. -/
theorem get?_after_of_definedIn (hi : i < s.arena.size) (h : definedIn i as = []) :
    (s.after as).arena.get? i = s.arena.get? i := by
  induction as generalizing s with
  | nil => rfl
  | cons a more ih =>
    rw [← List.singleton_append, definedIn_append, List.append_eq_nil_iff] at h
    obtain ⟨hone, hmore⟩ := h
    have hsize : s.arena.size ≤ (a.step s).arena.size := by
      rw [size_step]
      exact Nat.le_add_right _ _
    have hstep : (a.step s).arena.get? i = s.arena.get? i := by
      cases a with
      | enterProgram program => exact Arena.get?_push_of_lt hi _ _ _
      | enterProcedure outer name => exact Arena.get?_push_of_lt hi _ _ _
      | define index symbol line =>
        have hne : index ≠ i := by
          intro hindex
          simp [definedIn, hindex] at hone
        show (s.arena.define index symbol).get? i = _
        rw [Arena.get?_define, if_neg hne]
      | checkType index type => rfl
      | checkName index name => rfl
      | leave index => rfl
    exact (ih (by omega) hmore).trans hstep

end

/-- The arena where some scopes are open: its links go to older scopes, and the open scopes are the
chain around the innermost one. -/
structure Stacked (arena : Arena) (stack : List Nat) : Prop where
  /-- Links go to older scopes. -/
  linked : arena.Linked
  /-- The open scopes are a chain. -/
  chain : arena.Chain stack.head? stack

namespace Stacked

variable {arena : Arena} {stack : List Nat} {index : Nat}

/-- Before the first action no scope is open. -/
theorem initial : Stacked State.initial.arena [] :=
  ⟨fun _ _ hscope => (nomatch hscope), .nothing⟩

theorem lt_size (h : Stacked arena (index :: stack)) : index < arena.size :=
  h.chain.lt_size index List.mem_cons_self

theorem left (h : Stacked arena (index :: stack)) : Stacked arena stack := by
  refine ⟨h.linked, ?_⟩
  cases h.chain with
  | @scope _ s _ _ around =>
    rw [around.head?]
    exact around

theorem not_mem (h : Stacked arena (index :: stack)) : index ∉ stack := by
  intro hmem
  have hsorted := (List.pairwise_cons.1 (h.chain.descends h.linked).1).1
  exact Nat.lt_irrefl index (hsorted index hmem)

theorem define (h : Stacked arena stack) (i : Nat) (symbol : Symbol) :
    Stacked (arena.define i symbol) stack :=
  ⟨h.linked.define i symbol, h.chain.define i symbol⟩

theorem entered (h : Stacked arena stack) (name : String) (level : Nat) :
    Stacked (arena.push name level stack.head?) (arena.size :: stack) := by
  have houter : ∀ outer ∈ stack.head?, outer < arena.size := by
    intro outer hmem
    exact h.chain.lt_size outer (List.mem_of_mem_head? hmem)
  have hfound : (arena.push name level stack.head?).get? arena.size =
      some (Scope.create name level stack.head?) := by
    rw [Arena.get?_push, if_pos rfl]
  have hlink : (Scope.create name level stack.head?).parent = stack.head? :=
    (Scope.matches_create name level stack.head?).parent
  refine ⟨h.linked.push houter name level, .scope hfound ?_⟩
  rw [hlink]
  exact h.chain.push name level stack.head?

/-- What is done in the innermost scope leaves the open scopes open. -/
theorem inside {s : State} {a : Action} (h : Stacked s.arena stack) (works : a.WorksIn index) :
    Stacked (a.step s).arena stack := by
  cases works with
  | checkType type => exact h
  | define symbol line => exact h.define index symbol
  | checkName name => exact h

/-- The open scopes are a chain after any actions. -/
theorem after {s : State} {as : List Action} {bs : List Bracket} {stack' : List Nat}
    (h : Stacked s.arena stack) (hc : Course s.arena.size stack as bs stack') :
    Stacked (s.after as).arena stack' := by
  generalize hsize : s.arena.size = size at hc
  induction hc generalizing s with
  | done size stack => exact h
  | @enterProgram size program more bs stack' rest ih =>
    have hentered := h.entered globalName 1
    rw [hsize] at hentered
    refine ih hentered ?_
    rw [← hsize]
    exact Arena.size_push ..
  | @enterProcedure size outer name more bs stack stack' rest ih =>
    have hentered := h.entered name ((s.arena.get? outer).elim 0 Scope.level + 1)
    rw [hsize] at hentered
    refine ih hentered ?_
    rw [← hsize]
    exact Arena.size_push ..
  | @leave size index more bs stack stack' rest ih => exact ih h.left hsize
  | @inside size index a more bs stack stack' works rest ih =>
    refine ih (h.inside works) ?_
    rw [size_step, works.entries, hsize]
    rfl

end Stacked

end Analysis

end PocketPascal
