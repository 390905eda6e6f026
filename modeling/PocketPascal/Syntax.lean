import PocketPascal.Value

/-!
# Programs as trees

A program is a name and a block; a block declares variables and procedures, and then lists the
statements of its body. Procedures have blocks of their own, to any depth. Every name, operator,
literal and declaration carries the line on which it was written.
-/

namespace PocketPascal

/-- A name where it is written. -/
structure Name where
  /-- The name. -/
  text : String
  /-- The line on which it stands. -/
  line : Nat
  deriving DecidableEq, Repr

/-- A name that is declared with a type: a variable, or a parameter of a procedure. -/
structure Binding where
  /-- The declared name. -/
  name : Name
  /-- The name of its type. -/
  type : Name
  deriving DecidableEq, Repr

/-- An arithmetic expression. Parentheses leave no trace in it. -/
inductive Expr where
  /-- A number. -/
  | literal (value : Value) (line : Nat)
  /-- A variable. -/
  | variable (name : Name)
  /-- A sign in front of an operand; the line is that of the sign. -/
  | unary (op : UnaryOperator) (operand : Expr) (line : Nat)
  /-- An operator between two operands; the line is that of the operator. -/
  | binary (op : BinaryOperator) (left right : Expr) (line : Nat)
  deriving DecidableEq

/-- The line of an expression: that of its outermost operator, name or literal. -/
def Expr.line : Expr → Nat
  | .literal _ line => line
  | .variable name => name.line
  | .unary _ _ line => line
  | .binary _ _ _ line => line

/-- A statement. -/
inductive Statement where
  /-- Statements one after another. -/
  | compound (body : List Statement)
  /-- An assignment; the line is that of the assignment sign. -/
  | assign (target : Name) (value : Expr) (line : Nat)
  /-- The statement that does nothing. -/
  | empty

/-- A declaration. -/
inductive Declaration where
  /-- One variable with its type. -/
  | variable (binding : Binding)
  /-- A procedure with its parameters, its declarations and its body; the line is that of the word
  that opens it. -/
  | procedure (name : String) (line : Nat) (parameters : List Binding)
      (declarations : List Declaration) (body : List Statement)

/-- Declarations and the statements in their scope. -/
structure Block where
  /-- The declarations, in source order. -/
  declarations : List Declaration
  /-- The statements of the body, in source order. -/
  body : List Statement

/-- A whole program. -/
structure Program where
  /-- The program's name. -/
  name : String
  /-- The outermost block. -/
  block : Block

end PocketPascal
