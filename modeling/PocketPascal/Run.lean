import PocketPascal.Log
import PocketPascal.Syntax.Reading

/-!
# Runs

A run takes a source text through all phases: it is read, its scopes are analysed unless that is
switched off, and it is evaluated. The first error of any phase ends the run. What the phases did up
to there is in the log.
-/

namespace PocketPascal

/-- The settings of a run. -/
structure Options where
  /-- What to do with a name that its scope has declared before. -/
  policy : Policy := .overwrite
  /-- Whether to analyse the scopes before the evaluation. -/
  analyze : Bool := true
  deriving DecidableEq, Repr

/-- What has become of a run, or of a part of it. -/
structure Run (α : Type) where
  /-- The result, or the error that ended the run. -/
  result : Except Error α
  /-- The records of what was done. -/
  log : List Log.Record

namespace Run

variable {α β : Type}

/-- Goes on after a result, and puts the records together. -/
def bind (r : Run α) (next : α → Run β) : Run β :=
  match r.result with
  | .ok a => ⟨(next a).result, r.log ++ (next a).log⟩
  | .error e => ⟨.error e, r.log⟩

/-- Reads a program. -/
def parse (source : String) : Run Program :=
  match Program.ofSource source with
  | .ok program => ⟨.ok program, [Log.parsed program]⟩
  | .error cause => ⟨.error (.ofSyntax cause), []⟩

/-- Analyses a program. -/
def analyze (policy : Policy) (program : Program) : Run Unit :=
  let (result, analyzer) := (Analyzer.create policy).analyze program
  ⟨result.mapError .scope, analyzer.state.events.toList.map Log.ofEvent⟩

/-- Evaluates a program on a new machine. -/
def evaluate (program : Program) : Run Globals :=
  match program.execute .initial with
  | .ok _ m =>
      ⟨.ok m.globals, m.writes.toList.map Log.ofWrite ++ [Log.finished program m.globals]⟩
  | .error cause m => ⟨.error (.runtime cause), m.writes.toList.map Log.ofWrite⟩

/-- Takes a source text through all phases. -/
def ofSource (options : Options) (source : String) : Run Globals :=
  (parse source).bind fun program =>
    if options.analyze then (analyze options.policy program).bind fun _ => evaluate program
    else evaluate program

end Run

end PocketPascal
