import PocketPascal.Text.Quoted
import PocketPascal.Token
import PocketPascal.Value

/-!
# Errors

What can go wrong, by phase: a character that starts no token, a token that does not fit the
grammar, a name that does not fit its scope, and a computation without a value. Every error names
its cause and its line; the wording is in the `message` functions alone.
-/

namespace PocketPascal

/-- The beginning of every message. -/
def located (line : Nat) (text : String) : String := "Error on line " ++ toString line ++ ": " ++ text

/-- A character that starts no token, no spacing and no closed comment. -/
structure LexicalError where
  /-- The character. -/
  character : Char
  /-- The source text around it. -/
  snippet : String
  /-- The line on which it stands. -/
  line : Nat
  deriving DecidableEq, Repr

/-- What a syntax error points at. -/
structure Culprit where
  /-- The token. -/
  token : Token
  /-- The line that the error reports. -/
  line : Nat
  deriving DecidableEq, Repr

/-- A token as a culprit, reported on its own line. -/
def Token.culprit (t : Token) : Culprit := ⟨t, t.line⟩

instance : Coe Culprit Token := ⟨Culprit.token⟩

/-- A token that the grammar does not allow where it stands. -/
inductive SyntaxError where
  /-- The next token could not be scanned. -/
  | lexical (cause : LexicalError)
  /-- The grammar asks for a token of one kind and another one stands there; `recent` are the tokens
  read last, the oldest first. -/
  | unexpected (expected : Kind) (found : Culprit) (recent : List Token)
  /-- The program is complete, but the input goes on. -/
  | trailing (found : Culprit)
  /-- The token in the place of a type is no type. -/
  | noType (found : Culprit)
  /-- A number is too large for its type. -/
  | literalTooLarge (literal : String) (line : Nat)
  deriving DecidableEq, Repr

/-- A name that does not fit the scope in which it is used or declared. -/
inductive ScopeError where
  /-- No visible scope declares the name. -/
  | unknownName (name : String) (line : Nat)
  /-- The name in the place of a type is not the name of a type. -/
  | unknownType (name : String) (line : Nat)
  /-- The scope has declared the name before, and declaring it again is not allowed. -/
  | duplicateName (name : String) (scope : String) (line : Nat)
  deriving DecidableEq, Repr

/-- A computation that has no value. -/
inductive RuntimeError where
  /-- The variable has not been assigned. -/
  | unassigned (name : String) (line : Nat)
  /-- An operation has no value. -/
  | arithmetic (fault : Fault) (line : Nat)
  deriving DecidableEq, Repr

/-- An error of any phase. -/
inductive Error where
  /-- The text could not be scanned. -/
  | lexical (cause : LexicalError)
  /-- The tokens do not form a program. -/
  | syntactic (cause : SyntaxError)
  /-- A name does not fit its scope. -/
  | scope (cause : ScopeError)
  /-- The evaluation failed. -/
  | runtime (cause : RuntimeError)
  deriving DecidableEq, Repr

namespace LexicalError

/-- The text of the error. -/
def message (e : LexicalError) : String :=
  located e.line ("Invalid character " ++ Text.quoted e.character ++ " near \"" ++ e.snippet ++ "\".")

end LexicalError

namespace SyntaxError

/-- The line on which the error stands. -/
def line : SyntaxError → Nat
  | .lexical cause => cause.line
  | .unexpected _ found _ => found.line
  | .trailing found => found.line
  | .noType found => found.line
  | .literalTooLarge _ line => line

/-- The tokens read before an unexpected one, as the message lists them; nothing if there are
none. -/
def preview : List Token → String
  | [] => ""
  | recent => " Recent tokens: [" ++ ", ".intercalate (recent.map Token.describe) ++ "]"

/-- The text of the error. -/
def message : SyntaxError → String
  | .lexical cause => cause.message
  | .unexpected expected found recent =>
      located found.line
        ("Expected " ++ expected.label ++ ", but got " ++ found.token.describe ++ "." ++ preview recent)
  | .trailing found =>
      located found.line
        ("Extra tokens after the end of the program: " ++ found.token.describe ++ ".")
  | .noType found =>
      located found.line
        ("Expected a type (INTEGER or REAL), but got " ++ found.token.describe ++ ".")
  | .literalTooLarge literal line => located line ("Literal " ++ literal ++ " is too large.")

end SyntaxError

namespace ScopeError

/-- The line on which the error stands. -/
def line : ScopeError → Nat
  | .unknownName _ line => line
  | .unknownType _ line => line
  | .duplicateName _ _ line => line

/-- The text of the error. -/
def message : ScopeError → String
  | .unknownName name line => located line ("Identifier '" ++ name ++ "' not found.")
  | .unknownType name line => located line ("Unknown type '" ++ name ++ "'.")
  | .duplicateName name scope line =>
      located line ("Duplicate identifier '" ++ name ++ "' in scope '" ++ scope ++ "'.")

end ScopeError

namespace RuntimeError

/-- The line on which the error stands. -/
def line : RuntimeError → Nat
  | .unassigned _ line => line
  | .arithmetic _ line => line

/-- The text of the error. -/
def message : RuntimeError → String
  | .unassigned name line => located line ("Variable '" ++ name ++ "' not found.")
  | .arithmetic .divisionByZero line => located line "Division by zero."
  | .arithmetic .overflow line => located line "Integer overflow while trying to compute result."

end RuntimeError

namespace Error

/-- A failed reading is a lexical error if the scanner caused it, and a syntactic one otherwise. -/
def ofSyntax : SyntaxError → Error
  | .lexical cause => .lexical cause
  | cause => .syntactic cause

/-- The line on which the error stands. -/
def line : Error → Nat
  | .lexical cause => cause.line
  | .syntactic cause => cause.line
  | .scope cause => cause.line
  | .runtime cause => cause.line

/-- The text of the cause, without the name of the phase. -/
def causeMessage : Error → String
  | .lexical cause => cause.message
  | .syntactic cause => cause.message
  | .scope cause => cause.message
  | .runtime cause => cause.message

/-- The name of the phase that failed, as it stands in front of the message. -/
def phase : Error → String
  | .lexical _ => "[Lexical error] "
  | .syntactic _ => "[Syntax error] "
  | .scope _ => "[Semantic error] "
  | .runtime _ => "[Runtime error] "

/-- The text of the error: the phase, then the cause. -/
def message (e : Error) : String := e.phase ++ e.causeMessage

end Error

end PocketPascal
