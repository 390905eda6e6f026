import PocketPascal.Error
import PocketPascal.Scope.Arena
import PocketPascal.Syntax

/-!
# Static analysis of scopes

The analysis walks a program once, in source order, and checks that every name is declared where it
is used. The program gets the scope `global` on level one, and every procedure a scope inside the
scope that declares it:

* a variable or parameter asks for the type first, and then is declared;
* a procedure is declared in the scope around it before its own scope is created, so it can refer to
  itself; then come its parameters, its declarations and its body;
* an assignment resolves its target first, and then the names of its expression from left to right.

What the walk does is kept as a list of events, also if it fails. The names it has resolved, with
the scopes they were found in, are read off the events.
-/

namespace PocketPascal

/-- What to do with a name that its scope has declared before. -/
inductive Policy where
  /-- The later declaration replaces the earlier one. -/
  | overwrite
  /-- The later declaration is an error. -/
  | reject
  deriving DecidableEq, Repr

/-- Where a used name was found. -/
structure Resolution where
  /-- The name. -/
  name : String
  /-- The line on which it is used. -/
  line : Nat
  /-- The name of the scope that declares it. -/
  scope : String
  /-- The level of that scope. -/
  level : Nat
  deriving DecidableEq, Repr

namespace Analysis

/-- A step of the walk. -/
inductive Event where
  /-- The outermost scope has been created for a program. -/
  | enterProgram (program : String)
  /-- A scope has been created for a procedure. -/
  | enterProcedure (index : Nat) (name : String) (level : Nat)
  /-- A symbol is being defined in a scope. -/
  | define (symbol : Symbol) (scope : String)
  /-- The definition has replaced an earlier one. -/
  | replace (previous : Symbol) (scope : String) (line : Nat)
  /-- A used name has been found. -/
  | resolve (found : Resolution)
  /-- The scope with an index has been left; `enclosing` is the name of the scope around it. -/
  | leave (index : Nat) (scope : Scope) (enclosing : Option String)

/-- What the walk has built and done so far. -/
structure State where
  /-- The scopes. -/
  arena : Arena
  /-- The steps, in order. -/
  events : Array Event

/-- The state before the walk. -/
def State.initial : State := ⟨.empty, #[]⟩

/-- The used names that have been found, in order. -/
def State.resolutions (s : State) : List Resolution :=
  s.events.toList.filterMap fun event =>
    match event with
    | .resolve found => some found
    | _ => none

/-- A part of the walk. It ends well or with an error, and in either case with a state. -/
abbrev Walk := EStateM ScopeError State Unit

/-- Notes a step. -/
def note (event : Event) : Walk := modify fun s => { s with events := s.events.push event }

/-- A part of the walk that needs the scope with the given index. The walk names no scope before it
has created it. -/
def inScope (index : Nat) (part : Scope → Walk) : Walk := do
  match (← get).arena.get? index with
  | some scope => part scope
  | none => pure ()

/-- Defines a symbol, declared on the given line, in the scope with the given index. -/
def define (policy : Policy) (index : Nat) (symbol : Symbol) (line : Nat) : Walk :=
  inScope index fun scope =>
    let previous? := scope.lookup? symbol.name
    if policy = .reject ∧ previous?.isSome then
      throw (.duplicateName symbol.name scope.name line)
    else do
      note (.define symbol scope.name)
      modify fun s => { s with arena := s.arena.define index symbol }
      match previous? with
      | none => pure ()
      | some previous => note (.replace previous scope.name line)

/-- The name of the type that a name, seen from the scope with the given index, stands for. -/
def resolveType (index : Nat) (type : Name) : EStateM ScopeError State String := do
  match (← get).arena.resolve? index type.text with
  | some (_, symbol) =>
      if symbol.isType then pure symbol.name else throw (.unknownType type.text type.line)
  | none => throw (.unknownType type.text type.line)

/-- Checks that a used name is visible from the scope with the given index, and notes where it was
found. -/
def checkName (index : Nat) (name : Name) : Walk := do
  match (← get).arena.resolve? index name.text with
  | none => throw (.unknownName name.text name.line)
  | some (owner, _) =>
      inScope owner fun scope => note (.resolve ⟨name.text, name.line, scope.name, scope.level⟩)

/-- Checks the names of an expression, from left to right. -/
def checkExpr (index : Nat) : Expr → Walk
  | .literal _ _ => pure ()
  | .variable name => checkName index name
  | .unary _ operand _ => checkExpr index operand
  | .binary _ left right _ => do
      checkExpr index left
      checkExpr index right

mutual

/-- Checks the names of a statement. -/
def checkStatement (index : Nat) : Statement → Walk
  | .compound body => checkStatements index body
  | .assign target value _ => do
      checkName index target
      checkExpr index value
  | .empty => pure ()

/-- Checks the names of statements, one after another. -/
def checkStatements (index : Nat) : List Statement → Walk
  | [] => pure ()
  | first :: more => do
      checkStatement index first
      checkStatements index more

end

/-- Declares a variable or a parameter. -/
def declareBinding (policy : Policy) (index : Nat) (b : Binding) : Walk := do
  let type ← resolveType index b.type
  define policy index ⟨b.name.text, .variable type⟩ b.name.line

/-- Declares variables or parameters, one after another. -/
def declareBindings (policy : Policy) (index : Nat) : List Binding → Walk
  | [] => pure ()
  | first :: more => do
      declareBinding policy index first
      declareBindings policy index more

/-- The parameters of a procedure as its symbol holds them. -/
def signature (parameters : List Binding) : List Parameter :=
  parameters.map fun b => ⟨b.name.text, b.type.text⟩

/-- Leaves the scope with the given index. -/
def leave (index : Nat) : Walk := do
  let arena := (← get).arena
  inScope index fun scope =>
    note (.leave index scope ((scope.parent.bind arena.get?).map Scope.name))

/-- Creates the scope of a procedure inside the scope with the given index. -/
def enterProcedure (index : Nat) (name : String) : Walk := do
  let arena := (← get).arena
  let level := (arena.get? index).elim 0 Scope.level + 1
  modify fun s => { s with arena := s.arena.push name level (some index) }
  note (.enterProcedure arena.size name level)

mutual

/-- Checks a declaration in the scope with the given index. -/
def checkDeclaration (policy : Policy) (index : Nat) : Declaration → Walk
  | .variable b => declareBinding policy index b
  | .procedure name line parameters declarations body => do
      define policy index ⟨name, .procedure (signature parameters)⟩ line
      let inner := (← get).arena.size
      enterProcedure index name
      declareBindings policy inner parameters
      checkDeclarations policy inner declarations
      checkStatements inner body
      leave inner

/-- Checks declarations, one after another. -/
def checkDeclarations (policy : Policy) (index : Nat) : List Declaration → Walk
  | [] => pure ()
  | first :: more => do
      checkDeclaration policy index first
      checkDeclarations policy index more

end

/-- The name of the outermost scope. -/
def globalName : String := "global"

/-- Creates the outermost scope. -/
def enterProgram (program : String) : Walk := do
  modify fun s => { s with arena := s.arena.push globalName 1 none }
  note (.enterProgram program)

/-- Checks a whole program. -/
def checkProgram (policy : Policy) (program : Program) : Walk := do
  enterProgram program.name
  checkDeclarations policy 0 program.block.declarations
  checkStatements 0 program.block.body
  leave 0

/-! ## The type of a variable -/

/-- What the name of a type stands for has this name, so the name is resolved to itself. -/
theorem resolveType_eq (index : Nat) (type : Name) (s : State) :
    resolveType index type s =
      if (s.arena.resolve? index type.text).any (fun found => found.2.isType) then .ok type.text s
      else .error (.unknownType type.text type.line) s := by
  show (match s.arena.resolve? index type.text with
    | some (_, symbol) =>
        if symbol.isType then pure symbol.name else throw (.unknownType type.text type.line)
    | none => throw (.unknownType type.text type.line) : EStateM ScopeError State String) s = _
  cases hfound : s.arena.resolve? index type.text with
  | none => rfl
  | some found =>
    rw [Option.any_some, ← Arena.name_of_resolve? hfound]
    by_cases htype : found.2.isType = true
    · simp only [htype, if_true]
      rfl
    · simp only [htype]
      rfl

/-- Checks that a name, seen from the scope with the given index, is the name of a type. -/
def checkType (index : Nat) (type : Name) : Walk := do
  let _ ← resolveType index type

theorem checkType_eq (index : Nat) (type : Name) (s : State) :
    checkType index type s =
      if (s.arena.resolve? index type.text).any (fun found => found.2.isType) then .ok () s
      else .error (.unknownType type.text type.line) s := by
  show EStateM.bind (resolveType index type) (fun _ => pure ()) s = _
  rw [EStateM.bind, resolveType_eq]
  by_cases h : (s.arena.resolve? index type.text).any (fun found => found.2.isType) = true
  · rw [if_pos h, if_pos h]
    rfl
  · rw [if_neg h, if_neg h]

/-- The symbol of a variable holds the name of its type as it is written. -/
theorem declareBinding_eq (policy : Policy) (index : Nat) (b : Binding) :
    declareBinding policy index b = (do
      checkType index b.type
      define policy index ⟨b.name.text, .variable b.type.text⟩ b.name.line) := by
  funext s
  show EStateM.bind (resolveType index b.type) _ s = EStateM.bind (checkType index b.type) _ s
  rw [EStateM.bind, EStateM.bind, resolveType_eq, checkType_eq]
  by_cases h : (s.arena.resolve? index b.type.text).any (fun found => found.2.isType) = true
  · rw [if_pos h, if_pos h]
  · rw [if_neg h, if_neg h]

end Analysis

/-- Analyses programs under a policy, and keeps what the last analysis has built. -/
structure Analyzer where
  /-- What to do with repeated names. -/
  policy : Policy
  /-- What the last analysis has built and done, up to its error if it failed. -/
  state : Analysis.State

namespace Analyzer

/-- An analyzer that has analysed nothing. -/
def create (policy : Policy) : Analyzer := ⟨policy, .initial⟩

/-- Analyses a program. What earlier analyses have built is dropped. -/
def analyze (a : Analyzer) (program : Program) : Except ScopeError Unit × Analyzer :=
  match Analysis.checkProgram a.policy program .initial with
  | .ok _ state => (.ok (), { a with state })
  | .error cause state => (.error cause, { a with state })

end Analyzer

end PocketPascal
