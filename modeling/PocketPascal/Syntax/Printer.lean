import PocketPascal.Syntax

/-!
# Writing programs

The words of a tree, in the order in which they are written. Parentheses stand only where the tree
would be read differently without them: an operand is put in parentheses if it binds less tightly
than its place asks for. Every binding is written on its own, with its type.

A text is *spaced out* if the words of a tree stand in it one after another, each divided from the
next by spaces or line breaks.
-/

namespace PocketPascal

/-! ## Expressions -/

/-- How tightly an operator binds its operands: sums less than products. -/
def BinaryOperator.tightness : BinaryOperator → Nat
  | .add | .sub => 0
  | .mul | .div | .slash => 1

namespace Expr

/-- How tightly an expression holds together: operators as they bind, and everything else more
tightly than any operator. -/
def tightness : Expr → Nat
  | .binary op _ _ _ => op.tightness
  | _ => 2

/-- Words in parentheses, if an expression of one tightness stands where another one is asked
for. -/
def enclose (actual needed : Nat) (words : List String) : List String :=
  if actual < needed then Mark.leftParen.text :: words ++ [Mark.rightParen.text] else words

/-- The words of an expression. The right operand has to bind more tightly than the operator, as
chains are read from the left. -/
def words : Expr → List String
  | .literal value _ => [value.text]
  | .variable name => [name.text]
  | .unary op operand _ => op.symbol :: enclose operand.tightness 2 operand.words
  | .binary op left right _ =>
      enclose left.tightness op.tightness left.words ++
        op.symbol :: enclose right.tightness (op.tightness + 1) right.words

end Expr

/-! ## Statements and declarations -/

mutual

/-- The words of a statement. -/
def Statement.words : Statement → List String
  | .compound body => Keyword.begin.text :: (Statement.wordsOfList body ++ [Keyword.finish.text])
  | .assign target value _ => target.text :: Mark.assign.text :: value.words
  | .empty => []

/-- The words of statements, with a semicolon between any two. -/
def Statement.wordsOfList : List Statement → List String
  | [] => []
  | [last] => last.words
  | first :: second :: more =>
      first.words ++ Mark.semicolon.text :: Statement.wordsOfList (second :: more)

end

/-- The words of a binding. -/
def Binding.words (b : Binding) : List String := [b.name.text, Mark.colon.text, b.type.text]

/-- The words of a list of parameters, with a semicolon between any two; nothing if there are
none. -/
def Binding.wordsOfParameters : List Binding → List String
  | [] => []
  | first :: more =>
      Mark.leftParen.text ::
        (first.words ++ more.flatMap (fun b => Mark.semicolon.text :: b.words) ++
          [Mark.rightParen.text])

/-- Whether a declaration is that of a variable. -/
def Declaration.isVariable : Declaration → Bool
  | .variable _ => true
  | .procedure .. => false

mutual

/-- The words of a declaration, with the semicolon after it. -/
def Declaration.words : Declaration → List String
  | .variable b => b.words ++ [Mark.semicolon.text]
  | .procedure name _ parameters declarations body =>
      Keyword.procedure.text :: name :: Binding.wordsOfParameters parameters ++
        Mark.semicolon.text :: Declaration.wordsOfSection declarations ++
        (Statement.compound body).words ++ [Mark.semicolon.text]

/-- The words of declarations, one after another. -/
def Declaration.wordsOfList : List Declaration → List String
  | [] => []
  | first :: more => first.words ++ Declaration.wordsOfList more

/-- The words of the declarations of a block. The word for variables stands in front if the first
declaration is that of a variable. -/
def Declaration.wordsOfSection : List Declaration → List String
  | [] => []
  | first :: more =>
      (if first.isVariable then [Keyword.var.text] else []) ++
        (first.words ++ Declaration.wordsOfList more)

end

/-- The words of a program. -/
def Program.words (p : Program) : List String :=
  Keyword.program.text :: p.name :: Mark.semicolon.text ::
    (Declaration.wordsOfSection p.block.declarations ++ (Statement.compound p.block.body).words ++
      [Mark.dot.text])

/-! ## Texts -/

/-- Whether a character may divide two words: space, tab, carriage return, form feed and line
feed. -/
def isDivider (c : Char) : Bool :=
  c = ' ' || c = '\t' || c = '\r' || c = '\x0c' || c = '\n'

/-- The words stand in the text one after another, divided by spaces or line breaks. -/
inductive SpacedOut : List String → List Char → Prop where
  /-- The last word ends the text. -/
  | last (word : String) : SpacedOut [word] word.toList
  /-- A word, a gap, and the words after it. -/
  | more {word : String} {words : List String} {gap text : List Char} (hg : gap ≠ [])
      (hd : ∀ c ∈ gap, isDivider c) (h : SpacedOut words text) :
      SpacedOut (word :: words) (word.toList ++ gap ++ text)

/-! ## Trees without lines -/

/-- The name without its line. -/
def Name.unplaced (n : Name) : Name := { n with line := 0 }

/-- The binding without its lines. -/
def Binding.unplaced (b : Binding) : Binding := ⟨b.name.unplaced, b.type.unplaced⟩

/-- The expression without its lines. -/
def Expr.unplaced : Expr → Expr
  | .literal value _ => .literal value 0
  | .variable name => .variable name.unplaced
  | .unary op operand _ => .unary op operand.unplaced 0
  | .binary op left right _ => .binary op left.unplaced right.unplaced 0

mutual

/-- The statement without its lines. -/
def Statement.unplaced : Statement → Statement
  | .compound body => .compound (Statement.unplacedList body)
  | .assign target value _ => .assign target.unplaced value.unplaced 0
  | .empty => .empty

/-- The statements without their lines. -/
def Statement.unplacedList : List Statement → List Statement
  | [] => []
  | first :: more => first.unplaced :: Statement.unplacedList more

end

mutual

/-- The declaration without its lines. -/
def Declaration.unplaced : Declaration → Declaration
  | .variable b => .variable b.unplaced
  | .procedure name _ parameters declarations body =>
      .procedure name 0 (parameters.map Binding.unplaced) (Declaration.unplacedList declarations)
        (Statement.unplacedList body)

/-- The declarations without their lines. -/
def Declaration.unplacedList : List Declaration → List Declaration
  | [] => []
  | first :: more => first.unplaced :: Declaration.unplacedList more

end

/-- The program without its lines: its shape, its names and its numbers. -/
def Program.unplaced (p : Program) : Program :=
  ⟨p.name, Declaration.unplacedList p.block.declarations, Statement.unplacedList p.block.body⟩

end PocketPascal
