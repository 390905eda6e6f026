import PocketPascal.Error
import PocketPascal.Syntax
import Std.Data.ExtTreeMap

/-!
# Evaluation

A program computes the values of its global variables. Expressions are evaluated from left to right
and read the variables assigned so far; statements are executed in order. Declarations have no
effect, and procedures are never called. If an evaluation fails, the assignments before the failure
stay.

The declared type of a variable does not matter here: an assignment stores whatever value its
expression has.
-/

namespace PocketPascal

/-- The values of the variables, in the order of their names. -/
abbrev Globals := Std.ExtTreeMap String Value

/-- An assignment that has been made. -/
structure Write where
  /-- The line of the assignment. -/
  line : Nat
  /-- The variable. -/
  target : String
  /-- Its new value. -/
  value : Value
  deriving DecidableEq

/-- A machine that executes statements. -/
structure Machine where
  /-- The variables assigned so far. -/
  globals : Globals
  /-- The assignments made so far, in order. -/
  writes : Array Write

namespace Machine

/-- The machine without variables. -/
def initial : Machine := ⟨∅, #[]⟩

/-- The machine after an assignment. -/
def write (m : Machine) (w : Write) : Machine :=
  ⟨m.globals.insert w.target w.value, m.writes.push w⟩

end Machine

/-- The value of an operation on the given line, or its fault there. -/
def Value.at (line : Nat) : Except Fault Value → Except RuntimeError Value
  | .ok value => .ok value
  | .error fault => .error (.arithmetic fault line)

/-- The value of an expression. -/
def Expr.eval (globals : Globals) : Expr → Except RuntimeError Value
  | .literal value _ => .ok value
  | .variable name =>
      match globals[name.text]? with
      | some value => .ok value
      | none => .error (.unassigned name.text name.line)
  | .unary op operand line => do
      let value ← operand.eval globals
      Value.at line (Value.unary op value)
  | .binary op left right line => do
      let a ← left.eval globals
      let b ← right.eval globals
      Value.at line (Value.binary op a b)

/-- An execution. It ends well or with an error, and in either case with a machine. -/
abbrev Execution := EStateM RuntimeError Machine Unit

mutual

/-- Executes a statement. -/
def Statement.execute : Statement → Execution
  | .compound body => Statement.executeAll body
  | .assign target value line => do
      match value.eval (← get).globals with
      | .ok result => modify fun m => m.write ⟨line, target.text, result⟩
      | .error cause => throw cause
  | .empty => pure ()

/-- Executes statements, one after another. -/
def Statement.executeAll : List Statement → Execution
  | [] => pure ()
  | first :: more => do
      first.execute
      Statement.executeAll more

end

/-- Executes a program: the statements of its outermost body. -/
def Program.execute (p : Program) : Execution := Statement.executeAll p.block.body

end PocketPascal
