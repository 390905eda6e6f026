import PocketPascal.Scope.Analysis

/-!
# The rules of scoping

Lexical scoping as a program is read, without an arena. Only the scopes that are open at a place
matter there, so they are kept as a stack of frames, the innermost first. What happens in the
innermost frame is all that changes:

* a declaration adds a symbol to the innermost frame, and a later symbol hides an earlier one of the
  same name;
* a procedure is checked in a frame of its own on top of the frames around it, and nothing of that
  frame is left afterwards;
* a name means what the nearest frame that knows it says.

The rules give the error of a program, if there is one, and the names that were found before it.
-/

namespace PocketPascal.Scoping

/-- An open scope. -/
structure Frame where
  /-- The name of the scope. -/
  name : String
  /-- How deep the scope is nested. -/
  level : Nat
  /-- The symbols declared in it so far, the latest first. -/
  symbols : List Symbol

/-- The latest symbol of a name in one frame. -/
def Frame.lookup? (f : Frame) (name : String) : Option Symbol :=
  f.symbols.find? fun symbol => symbol.name = name

/-- The nearest frame that knows a name, with the symbol. -/
def find? : List Frame → String → Option (Frame × Symbol)
  | [], _ => none
  | f :: outer, name =>
      match f.lookup? name with
      | some symbol => some (f, symbol)
      | none => find? outer name

/-- A part of the check: it has a value or an error, and in either case the names found so far. -/
abbrev Check := EStateM ScopeError (List Resolution)

/-- The frame with a symbol that is declared on the given line. -/
def Frame.declare (policy : Policy) (f : Frame) (symbol : Symbol) (line : Nat) : Check Frame :=
  if policy = .reject ∧ (f.lookup? symbol.name).isSome then
    throw (.duplicateName symbol.name f.name line)
  else pure { f with symbols := symbol :: f.symbols }

/-- Checks that a name is that of a type. -/
def checkType (frames : List Frame) (type : Name) : Check Unit :=
  match find? frames type.text with
  | some (_, ⟨_, .builtin⟩) => pure ()
  | _ => throw (.unknownType type.text type.line)

/-- Checks that a used name is known, and records the frame that knows it. -/
def checkName (frames : List Frame) (name : Name) : Check Unit :=
  match find? frames name.text with
  | some (f, _) => modify fun found => found ++ [⟨name.text, name.line, f.name, f.level⟩]
  | none => throw (.unknownName name.text name.line)

/-- Checks the names of an expression, from left to right. -/
def checkExpr (frames : List Frame) : Expr → Check Unit
  | .literal _ _ => pure ()
  | .variable name => checkName frames name
  | .unary _ operand _ => checkExpr frames operand
  | .binary _ left right _ => do
      checkExpr frames left
      checkExpr frames right

mutual

/-- Checks the names of a statement. -/
def checkStatement (frames : List Frame) : Statement → Check Unit
  | .compound body => checkStatements frames body
  | .assign target value _ => do
      checkName frames target
      checkExpr frames value
  | .empty => pure ()

/-- Checks the names of statements, one after another. -/
def checkStatements (frames : List Frame) : List Statement → Check Unit
  | [] => pure ()
  | first :: more => do
      checkStatement frames first
      checkStatements frames more

end

/-- The innermost frame `f` with a variable or a parameter; `outer` are the frames around it. -/
def declareBinding (policy : Policy) (outer : List Frame) (f : Frame) (b : Binding) :
    Check Frame := do
  checkType (f :: outer) b.type
  f.declare policy ⟨b.name.text, .variable b.type.text⟩ b.name.line

/-- The innermost frame with variables or parameters. -/
def declareBindings (policy : Policy) (outer : List Frame) (f : Frame) :
    List Binding → Check Frame
  | [] => pure f
  | first :: more => do
      let f ← declareBinding policy outer f first
      declareBindings policy outer f more

mutual

/-- The innermost frame with what a declaration declares. A procedure is checked on the way. -/
def declare (policy : Policy) (outer : List Frame) (f : Frame) : Declaration → Check Frame
  | .variable b => declareBinding policy outer f b
  | .procedure name line parameters declarations body => do
      let signature := parameters.map fun b => ⟨b.name.text, b.type.text⟩
      let f ← f.declare policy ⟨name, .procedure signature⟩ line
      let inner ← declareBindings policy (f :: outer) ⟨name, f.level + 1, []⟩ parameters
      let inner ← declareAll policy (f :: outer) inner declarations
      checkStatements (inner :: f :: outer) body
      return f

/-- The innermost frame with what declarations declare, one after another. -/
def declareAll (policy : Policy) (outer : List Frame) (f : Frame) :
    List Declaration → Check Frame
  | [] => pure f
  | first :: more => do
      let f ← declare policy outer f first
      declareAll policy outer f more

end

/-- The outermost frame, in which the names of the built-in types are known. -/
def globalFrame : Frame := ⟨"global", 1, [⟨"REAL", .builtin⟩, ⟨"INTEGER", .builtin⟩]⟩

/-- Checks a whole program. -/
def checkProgram (policy : Policy) (p : Program) : Check Unit := do
  let f ← declareAll policy [] globalFrame p.block.declarations
  checkStatements [f] p.block.body

/-- The error of a program, if it breaks the rules, and the names found before it. -/
def check (policy : Policy) (p : Program) : Except ScopeError Unit × List Resolution :=
  match checkProgram policy p [] with
  | .ok _ found => (.ok (), found)
  | .error cause found => (.error cause, found)

end PocketPascal.Scoping
