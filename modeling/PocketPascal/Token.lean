/-!
# Tokens

The vocabulary of the language. A token has a *kind*, the text it was written as (its *lexeme*) and
the line on which it starts. Kinds fall into reserved words, punctuation marks, names, the two sorts
of numbers, the spacing between tokens, and the end of the input.

The scanner never hands out a token of a spacing kind; the kinds exist because spacing is recognised
by the same longest-match rule as everything else.
-/

namespace PocketPascal

/-- The reserved words. They are written in capitals and differ from names only by their
spelling. -/
inductive Keyword where
  /-- Opens a program. -/
  | program
  /-- Opens a section of variable declarations. -/
  | var
  /-- Opens a procedure declaration. -/
  | procedure
  /-- Opens a compound statement. -/
  | begin
  /-- Closes a compound statement. -/
  | finish
  /-- The type of whole numbers. -/
  | integer
  /-- The type of floating-point numbers. -/
  | real
  /-- Division that rounds the quotient down. -/
  | div
  deriving DecidableEq, Repr

/-- The punctuation marks. -/
inductive Mark where
  /-- The sign of an assignment, a colon directly followed by an equals sign. -/
  | assign
  /-- Separates names from their type. -/
  | colon
  /-- Separates statements and ends declarations. -/
  | semicolon
  /-- Separates the names of one declaration. -/
  | comma
  /-- Ends a program. -/
  | dot
  /-- Addition, or the identity. -/
  | plus
  /-- Subtraction, or negation. -/
  | minus
  /-- Multiplication. -/
  | times
  /-- Division in floating-point numbers. -/
  | slash
  /-- Opens a parenthesis. -/
  | leftParen
  /-- Closes a parenthesis. -/
  | rightParen
  deriving DecidableEq, Repr

/-- What may stand between two tokens. -/
inductive Spacing where
  /-- A comment in braces. -/
  | comment
  /-- A line break. -/
  | newline
  /-- A run of spaces, tabs, carriage returns and form feeds. -/
  | gap
  deriving DecidableEq, Repr

/-- The kind of a token. -/
inductive Kind where
  /-- A reserved word. -/
  | keyword (word : Keyword)
  /-- A punctuation mark. -/
  | mark (sign : Mark)
  /-- A name. -/
  | name
  /-- A whole number, in digits only. -/
  | integer
  /-- A number with digits on both sides of a decimal point. -/
  | real
  /-- Spacing between tokens. -/
  | spacing (sort : Spacing)
  /-- The end of the input. -/
  | finish
  deriving DecidableEq, Repr

/-- The reserved word as it is written in a source text. -/
def Keyword.text : Keyword → String
  | .program => "PROGRAM"
  | .var => "VAR"
  | .procedure => "PROCEDURE"
  | .begin => "BEGIN"
  | .finish => "END"
  | .integer => "INTEGER"
  | .real => "REAL"
  | .div => "DIV"

/-- All reserved words. -/
def Keyword.all : List Keyword :=
  [.program, .var, .procedure, .begin, .finish, .integer, .real, .div]

/-- The reserved word with the given spelling, if there is one. Case matters. -/
def Keyword.ofText? (text : String) : Option Keyword :=
  Keyword.all.find? fun word => word.text == text

/-- The punctuation mark as it is written in a source text. -/
def Mark.text : Mark → String
  | .assign => ":="
  | .colon => ":"
  | .semicolon => ";"
  | .comma => ","
  | .dot => "."
  | .plus => "+"
  | .minus => "-"
  | .times => "*"
  | .slash => "/"
  | .leftParen => "("
  | .rightParen => ")"

/-- The name under which a kind appears in messages. -/
def Kind.label : Kind → String
  | .keyword .div => "INTEGER_DIV"
  | .keyword word => word.text
  | .mark .assign => "ASSIGN"
  | .mark .colon => "COLON"
  | .mark .semicolon => "SEMI"
  | .mark .comma => "COMMA"
  | .mark .dot => "DOT"
  | .mark .plus => "PLUS"
  | .mark .minus => "MINUS"
  | .mark .times => "MUL"
  | .mark .slash => "FLOAT_DIV"
  | .mark .leftParen => "LPAREN"
  | .mark .rightParen => "RPAREN"
  | .name => "ID"
  | .integer => "INTEGER_CONST"
  | .real => "REAL_CONST"
  | .spacing .comment => "COMMENT"
  | .spacing .newline => "NEWLINE"
  | .spacing .gap => "WHITESPACE"
  | .finish => "EOF"

/-- Whether a kind is one of spacing, which the scanner passes over. -/
def Kind.isSpacing : Kind → Bool
  | .spacing _ => true
  | _ => false

/-- Whether a kind is that of a word for a type. -/
def Kind.isType : Kind → Bool
  | .keyword .integer | .keyword .real => true
  | _ => false

/-- A token of a source text. -/
structure Token where
  /-- What the token is. -/
  kind : Kind
  /-- The text it was written as; only the end of the input has none. -/
  lexeme : Option String
  /-- The line on which it starts. -/
  line : Nat
  deriving DecidableEq, Repr

namespace Token

/-- The token for the end of the input. -/
def finish (line : Nat) : Token := ⟨.finish, none, line⟩

/-- The lexeme, or the empty text for a token without one. -/
def text (t : Token) : String := t.lexeme.getD ""

/-- How a token appears in a message: its kind and, if it has one, its lexeme. -/
def describe (t : Token) : String :=
  match t.lexeme with
  | some lexeme => "Token(" ++ t.kind.label ++ ", '" ++ lexeme ++ "')"
  | none => "Token(" ++ t.kind.label ++ ")"

end Token

/-- The end of the input is no type. -/
theorem Kind.ne_finish_of_isType {kind : Kind} (h : kind.isType) : kind ≠ .finish := by
  rintro rfl
  cases h

/-! ## Spelling -/

/-- A word is read back from its spelling. -/
theorem Keyword.ofText?_text (word : Keyword) : Keyword.ofText? word.text = some word := by
  cases word <;> decide

/-- Only the spelling of a reserved word is read as that word. -/
theorem Keyword.text_of_ofText? {text : String} {word : Keyword}
    (h : Keyword.ofText? text = some word) : word.text = text := by
  simpa using List.find?_some h

end PocketPascal
