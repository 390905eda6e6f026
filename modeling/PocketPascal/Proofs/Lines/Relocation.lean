import PocketPascal.Syntax.Reading

/-!
# Other lines

Tokens carry lines, and so does everything that is made of them: trees, errors and cursors.
`relocate f` puts whatever stands on line `n` on line `f n`. The function need not keep lines apart
or in order; nothing that the phases do depends on it.
-/

namespace PocketPascal

/-! ## Tokens and trees -/

/-- The token on another line. -/
def Token.relocate (f : Nat → Nat) (t : Token) : Token := { t with line := f t.line }

def Name.relocate (f : Nat → Nat) (n : Name) : Name := { n with line := f n.line }

def Binding.relocate (f : Nat → Nat) (b : Binding) : Binding :=
  ⟨b.name.relocate f, b.type.relocate f⟩

def Expr.relocate (f : Nat → Nat) : Expr → Expr
  | .literal value line => .literal value (f line)
  | .variable name => .variable (name.relocate f)
  | .unary op operand line => .unary op (operand.relocate f) (f line)
  | .binary op left right line => .binary op (left.relocate f) (right.relocate f) (f line)

mutual

def Statement.relocate (f : Nat → Nat) : Statement → Statement
  | .compound body => .compound (Statement.relocateAll f body)
  | .assign target value line => .assign (target.relocate f) (value.relocate f) (f line)
  | .empty => .empty

def Statement.relocateAll (f : Nat → Nat) : List Statement → List Statement
  | [] => []
  | first :: more => first.relocate f :: Statement.relocateAll f more

end

mutual

def Declaration.relocate (f : Nat → Nat) : Declaration → Declaration
  | .variable b => .variable (b.relocate f)
  | .procedure name line parameters declarations body =>
      .procedure name (f line) (parameters.map (Binding.relocate f))
        (Declaration.relocateAll f declarations) (Statement.relocateAll f body)

def Declaration.relocateAll (f : Nat → Nat) : List Declaration → List Declaration
  | [] => []
  | first :: more => first.relocate f :: Declaration.relocateAll f more

end

def Block.relocate (f : Nat → Nat) (b : Block) : Block :=
  ⟨Declaration.relocateAll f b.declarations, Statement.relocateAll f b.body⟩

def Program.relocate (f : Nat → Nat) (p : Program) : Program :=
  { p with block := p.block.relocate f }

/-! ## Errors -/

def LexicalError.relocate (f : Nat → Nat) (e : LexicalError) : LexicalError :=
  { e with line := f e.line }

def Culprit.relocate (f : Nat → Nat) (found : Culprit) : Culprit :=
  ⟨found.token.relocate f, f found.line⟩

def SyntaxError.relocate (f : Nat → Nat) : SyntaxError → SyntaxError
  | .lexical cause => .lexical (cause.relocate f)
  | .unexpected expected found recent =>
      .unexpected expected (found.relocate f) (recent.map (Token.relocate f))
  | .trailing found => .trailing (found.relocate f)
  | .noType found => .noType (found.relocate f)
  | .literalTooLarge literal line => .literalTooLarge literal (f line)

def ScopeError.relocate (f : Nat → Nat) : ScopeError → ScopeError
  | .unknownName name line => .unknownName name (f line)
  | .unknownType name line => .unknownType name (f line)
  | .duplicateName name scope line => .duplicateName name scope (f line)

def RuntimeError.relocate (f : Nat → Nat) : RuntimeError → RuntimeError
  | .unassigned name line => .unassigned name (f line)
  | .arithmetic fault line => .arithmetic fault (f line)

/-- The error with its lines, and those of the tokens in it, replaced; all else in it stays. -/
def Error.relocate (f : Nat → Nat) : Error → Error
  | .lexical cause => .lexical (cause.relocate f)
  | .syntactic cause => .syntactic (cause.relocate f)
  | .scope cause => .scope (cause.relocate f)
  | .runtime cause => .runtime (cause.relocate f)

theorem Error.ofSyntax_relocate (f : Nat → Nat) (e : SyntaxError) :
    Error.ofSyntax (e.relocate f) = (Error.ofSyntax e).relocate f := by
  cases e <;> rfl

/-! ## Cursors -/

def Feed.relocate (f : Nat → Nat) (feed : Feed) : Feed :=
  ⟨feed.answers.map fun answer =>
    (answer.mapError (LexicalError.relocate f)).map (Token.relocate f), f feed.endLine⟩

def Cursor.relocate (f : Nat → Nat) (c : Cursor) : Cursor :=
  ⟨c.recent.map (Token.relocate f), c.current.relocate f, c.ahead.relocate f⟩

variable {f : Nat → Nat}

theorem Feed.pull_relocate (feed : Feed) :
    (feed.relocate f).pull =
      ((feed.pull.1.mapError (LexicalError.relocate f)).map (Token.relocate f),
        feed.pull.2.relocate f) := by
  obtain ⟨answers, line⟩ := feed
  cases answers with
  | nil => rfl
  | cons answer answers => rfl

namespace Cursor

@[simp] theorem kind_relocate (c : Cursor) : (c.relocate f).current.kind = c.current.kind := rfl

@[simp] theorem isAt_relocate (c : Cursor) (kind : Kind) :
    (c.relocate f).isAt kind = c.isAt kind := rfl

theorem unexpected_relocate (c : Cursor) (expected : Kind) :
    (c.relocate f).unexpected expected = (c.unexpected expected).relocate f := rfl

theorem advance_relocate (c : Cursor) (next : Token) (ahead : Feed) :
    (c.relocate f).advance (next.relocate f) (ahead.relocate f) =
      (c.advance next ahead).relocate f := by
  simp only [advance, remember, relocate, List.length_map, List.map_append, List.map_singleton,
    apply_ite (List.map (Token.relocate f)), List.map_tail]

end Cursor

end PocketPascal
