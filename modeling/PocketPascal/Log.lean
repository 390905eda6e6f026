import PocketPascal.Evaluation
import PocketPascal.Scope.Analysis

/-!
# The log of a run

A run can report what it does. Each record has a level, the part of the program that it comes from,
and a message; a record is shown if its level is within the verbosity that was asked for. Later
lines of a message are indented below the first.
-/

namespace PocketPascal.Log

/-- How much detail a record holds. -/
inductive Level where
  /-- The course of a run. -/
  | debug
  /-- Every single step. -/
  | trace
  deriving DecidableEq, Repr

/-- The level as a record shows it. -/
def Level.label : Level → String
  | .debug => "DEBUG"
  | .trace => "TRACE"

/-- The verbosity from which on records of the level are shown. -/
def Level.verbosity : Level → Nat
  | .debug => 2
  | .trace => 3

/-- The part of the program that a record comes from. -/
inductive Source where
  /-- Reading a program. -/
  | reading
  /-- Analysing its scopes. -/
  | analysis
  /-- Evaluating it. -/
  | evaluation
  deriving DecidableEq, Repr

/-- The source as a record shows it. -/
def Source.label : Source → String
  | .reading => "minipas"
  | .analysis => "minipas::interpreter::semantic::core"
  | .evaluation => "minipas::interpreter::evaluator::core"

/-- A record of a log. -/
structure Record where
  /-- How much detail it holds. -/
  level : Level
  /-- Where it comes from. -/
  source : Source
  /-- What has happened. -/
  message : String
  deriving DecidableEq, Repr

namespace Record

/-- A text with its later lines indented. -/
def indented (text : String) : String :=
  String.ofList (text.toList.flatMap fun c => if c = '\n' then "\n    ".toList else [c])

/-- The record as it is shown, with the line break after it. -/
def line (r : Record) : String :=
  "[" ++ r.level.label ++ " " ++ r.source.label ++ "] " ++ indented r.message ++ "\n"

end Record

/-- The records that are shown at a verbosity, one after another. -/
def write (verbosity : Nat) (records : List Record) : String :=
  String.join ((records.filter fun r => r.level.verbosity ≤ verbosity).map Record.line)

/-! ## What is recorded -/

/-- The record of a program that has been read. -/
def parsed (p : Program) : Record :=
  ⟨.debug, .reading, "Parsed program '" ++ p.name ++ "' with " ++
    toString p.block.declarations.length ++ " top-level declaration(s)"⟩

/-- The record of a step of the analysis. -/
def ofEvent : Analysis.Event → Record
  | .enterProgram program =>
      ⟨.debug, .analysis,
        "Entering scope '" ++ Analysis.globalName ++ "' for program '" ++ program ++ "'"⟩
  | .enterProcedure _ name level =>
      ⟨.debug, .analysis, "Entering scope '" ++ name ++ "' at level " ++ toString level⟩
  | .define symbol scope =>
      ⟨.trace, .analysis, "Defining " ++ symbol.describe ++ " in scope '" ++ scope ++ "'"⟩
  | .replace previous scope line =>
      ⟨.debug, .analysis, "Redeclaration on line " ++ toString line ++ " replaced " ++
        previous.describe ++ " in scope '" ++ scope ++ "'"⟩
  | .resolve found =>
      ⟨.trace, .analysis, "Resolved '" ++ found.name ++ "' on line " ++ toString found.line ++
        " in scope '" ++ found.scope ++ "'"⟩
  | .leave _ scope enclosing =>
      ⟨.debug, .analysis, "Leaving scope '" ++ scope.name ++ "' (enclosing: " ++
        enclosing.getD "none" ++ ")\n" ++ scope.dump⟩

/-- The record of an assignment. -/
def ofWrite (w : Write) : Record :=
  ⟨.trace, .evaluation, "line " ++ toString w.line ++ ": " ++ w.target ++ " := " ++ w.value.text⟩

/-- The record of a program that has been executed to its end. -/
def finished (p : Program) (globals : Globals) : Record :=
  ⟨.debug, .evaluation, "Program '" ++ p.name ++ "' finished with " ++ toString globals.size ++
    " global(s)"⟩

end PocketPascal.Log
