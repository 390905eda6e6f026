import PocketPascal.Main
import PocketPascal.Scope.Rules
import PocketPascal.Syntax.Grammar
import PocketPascal.Syntax.Printer
import PocketPascal.Proofs.Token.Calls
import PocketPascal.Proofs.Token.Course
import PocketPascal.Proofs.Syntax.Expressions
import PocketPascal.Proofs.Syntax.Statements
import PocketPascal.Proofs.Syntax.Declarations
import PocketPascal.Proofs.Syntax.Acceptance
import PocketPascal.Proofs.Scope.Chains
import PocketPascal.Proofs.Scope.Refinement
import PocketPascal.Proofs.Syntax.Misfit
import PocketPascal.Proofs.Token.Words
import PocketPascal.Proofs.Syntax.Rendering
import PocketPascal.Proofs.Syntax.RoundTrip
import PocketPascal.Proofs.Token.Patterns
import PocketPascal.Proofs.Token.Segmentation
import PocketPascal.Proofs.Syntax.Names
import PocketPascal.Proofs.Scope.Visible
import PocketPascal.Proofs.Evaluation.Assignments
import PocketPascal.Proofs.Evaluation.Reruns
import PocketPascal.Proofs.Run.Phases
import PocketPascal.Proofs.Run.Guarantees
import PocketPascal.Proofs.Lines.Relocation
import PocketPascal.Proofs.Lines.Reading
import PocketPascal.Proofs.Lines.Phases
import PocketPascal.Proofs.Token.Layout
import PocketPascal.Proofs.Run.Layout
import PocketPascal.Proofs.Run.Precedence
import PocketPascal.Proofs.Run.Strictness
import PocketPascal.Proofs.Run.Culprits
import PocketPascal.Proofs.Evaluation.Kinds
import PocketPascal.Proofs.Evaluation.Exactness
import PocketPascal.Proofs.Scope.Nearest
import PocketPascal.Proofs.Scope.Nesting
import PocketPascal.Proofs.Scope.OpenScopes
import PocketPascal.Proofs.Run.ScopeRecords
import PocketPascal.Proofs.Scope.Gained
import PocketPascal.Proofs.Scope.Additions
import PocketPascal.Proofs.Run.Snippets
import PocketPascal.Proofs.Decimal.Texts
import PocketPascal.Proofs.Run.Output
import PocketPascal.Proofs.Text.Bytes
import PocketPascal.Proofs.Evaluation.Steps
import PocketPascal.Proofs.Token.Answers
import PocketPascal.Proofs.Token.Attempts
import PocketPascal.Proofs.Syntax.Attempts
import PocketPascal.Proofs.Syntax.Extent
import PocketPascal.Proofs.Scope.Listing
import PocketPascal.Proofs.Syntax.Descent
import PocketPascal.Proofs.Syntax.StepBounds
import PocketPascal.Proofs.Token.Progress
import PocketPascal.Proofs.Syntax.Termination
