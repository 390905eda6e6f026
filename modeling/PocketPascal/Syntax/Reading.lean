import PocketPascal.Decimal.Reading
import PocketPascal.Syntax
import PocketPascal.Token.Cursor

/-!
# Reading programs

Trees are read from a cursor by recursive descent, with the current token as the only lookahead. The
grammar, with the words for the kinds of tokens in capitals:

* `program = PROGRAM ID SEMI block DOT`, and then the end of the input;
* `block = declarations compound`;
* `declarations = (VAR (bindings SEMI)+)? (procedure SEMI)*`;
* `procedure = PROCEDURE ID (LPAREN bindings (SEMI bindings)* RPAREN)? SEMI block`;
* `bindings = ID (COMMA ID)* COLON type` and `type = INTEGER | REAL`;
* `compound = BEGIN statement (SEMI statement)* END`;
* `statement = compound | ID ASSIGN expr |` nothing;
* `expr = term ((PLUS | MINUS) term)*` and `term = factor ((MUL | INTEGER_DIV | FLOAT_DIV) factor)*`;
* `factor = (PLUS | MINUS) factor | INTEGER_CONST | REAL_CONST | LPAREN expr RPAREN | ID`.

Chains of operators nest to the left and prefix signs to the right. A number that is too large is an
error of its own, reported once the token after it has been scanned.
-/

namespace PocketPascal

/-! ## Names and literals -/

/-- Reads a name. -/
def Name.read (c : Cursor) : Reading c.remaining Name :=
  (c.eat .name).map fun t => ⟨t.text, t.line⟩

/-- The value of a number, if it can be held: a whole number in range, a finite floating-point
number. -/
def Token.value? (t : Token) : Option Value :=
  match t.kind with
  | .integer => (Whole.checked (Decimal.natOfDigits t.text.toList)).toOption.map .integer
  | .real => ((Decimal.float? t.text).filter Float.isFinite).map .real
  | _ => none

/-- Reads a number of the given kind. -/
def Expr.readLiteral (c : Cursor) (kind : Kind) (hk : kind ≠ .finish := by decide) :
    Reading c.remaining Expr :=
  (c.eat kind hk).bind fun t after lt =>
    match t.value? with
    | some value => .done (.literal value t.line) after lt
    | none => .failed (.literalTooLarge t.text t.line) after

/-! ## Expressions -/

mutual

/-- Reads an expression: a chain of sums. -/
def Expr.read (c : Cursor) : Reading c.remaining Expr :=
  (Expr.readTerm c).bind fun left c₁ _ => (Expr.readSum left c₁).weaken (by omega)
termination_by 3 * c.remaining + 2

/-- Reads the rest of a chain of sums, of which `left` has been read. -/
def Expr.readSum (left : Expr) (c : Cursor) : Reading (c.remaining + 1) Expr :=
  match BinaryOperator.ofSumKind? c.current.kind with
  | none => .done left c (Nat.lt_succ_self _)
  | some op =>
      (c.eat op.kind op.kind_ne_finish).bind fun t c₁ _ =>
        (Expr.readTerm c₁).bind fun right c₂ _ =>
          (Expr.readSum (.binary op left right t.line) c₂).weaken (by omega)
termination_by 3 * c.remaining

/-- Reads a term: a chain of products. -/
def Expr.readTerm (c : Cursor) : Reading c.remaining Expr :=
  (Expr.readFactor c).bind fun left c₁ _ => (Expr.readProduct left c₁).weaken (by omega)
termination_by 3 * c.remaining + 1

/-- Reads the rest of a chain of products, of which `left` has been read. -/
def Expr.readProduct (left : Expr) (c : Cursor) : Reading (c.remaining + 1) Expr :=
  match BinaryOperator.ofProductKind? c.current.kind with
  | none => .done left c (Nat.lt_succ_self _)
  | some op =>
      (c.eat op.kind op.kind_ne_finish).bind fun t c₁ _ =>
        (Expr.readFactor c₁).bind fun right c₂ _ =>
          (Expr.readProduct (.binary op left right t.line) c₂).weaken (by omega)
termination_by 3 * c.remaining

/-- Reads a factor. Where none begins, a name is asked for. -/
def Expr.readFactor (c : Cursor) : Reading c.remaining Expr :=
  match UnaryOperator.ofKind? c.current.kind with
  | some op =>
      (c.eat op.kind op.kind_ne_finish).bind fun t c₁ _ =>
        ((Expr.readFactor c₁).map fun operand => .unary op operand t.line).weaken (by omega)
  | none =>
      match c.current.kind with
      | .integer => Expr.readLiteral c .integer
      | .real => Expr.readLiteral c .real
      | .mark .leftParen =>
          (c.eat (.mark .leftParen)).bind fun _ c₁ _ =>
            (Expr.read c₁).bind fun inner c₂ _ =>
              ((c₂.eat (.mark .rightParen)).map fun _ => inner).weaken (by omega)
      | _ => (Name.read c).map .variable
termination_by 3 * c.remaining

end

/-! ## Statements -/

/-- Reads an assignment. -/
def Statement.readAssignment (c : Cursor) : Reading c.remaining Statement :=
  (Name.read c).bind fun target c₁ _ =>
    (c₁.eat (.mark .assign)).bind fun t c₂ _ =>
      ((Expr.read c₂).map fun value => .assign target value t.line).weaken (by omega)

mutual

/-- Reads the statements between two words that open and close them. -/
def Statement.readCompound (c : Cursor) : Reading c.remaining (List Statement) :=
  (c.eat (.keyword .begin)).bind fun _ c₁ _ =>
    (Statement.readList c₁).bind fun body c₂ _ =>
      ((c₂.eat (.keyword .finish)).map fun _ => body).weaken (by omega)
termination_by 3 * c.remaining

/-- Reads statements separated by semicolons, at least one. -/
def Statement.readList (c : Cursor) : Reading (c.remaining + 1) (List Statement) :=
  (Statement.read c).bind fun first c₁ _ =>
    if c₁.isAt (.mark .semicolon) then
      (c₁.eat (.mark .semicolon)).bind fun _ c₂ _ =>
        ((Statement.readList c₂).map fun more => first :: more).weaken (by omega)
    else .done [first] c₁ (by omega)
termination_by 3 * c.remaining + 2

/-- Reads a statement. Where none begins, the empty statement is read. -/
def Statement.read (c : Cursor) : Reading (c.remaining + 1) Statement :=
  match c.current.kind with
  | .keyword .begin => ((Statement.readCompound c).map .compound).weaken (by omega)
  | .name => (Statement.readAssignment c).weaken (by omega)
  | _ => .done .empty c (Nat.lt_succ_self _)
termination_by 3 * c.remaining + 1

end

/-! ## Declarations -/

/-- Reads names separated by commas, at least one. -/
def Name.readList (c : Cursor) : Reading c.remaining (List Name) :=
  (Name.read c).bind fun first c₁ _ =>
    if c₁.isAt (.mark .comma) then
      (c₁.eat (.mark .comma)).bind fun _ c₂ _ =>
        ((Name.readList c₂).map fun more => first :: more).weaken (by omega)
    else .done [first] c₁ (by omega)
termination_by c.remaining

/-- Reads the name of a type. -/
def Name.readType (c : Cursor) : Reading c.remaining Name :=
  if h : c.current.kind.isType then
    (c.eat c.current.kind (Kind.ne_finish_of_isType h)).map fun t => ⟨t.text, t.line⟩
  else .failed (.noType c.current.culprit) c

/-- Reads names with their common type, and gives one binding for each name. -/
def Binding.readGroup (c : Cursor) : Reading c.remaining (List Binding) :=
  (Name.readList c).bind fun names c₁ _ =>
    (c₁.eat (.mark .colon)).bind fun _ c₂ _ =>
      ((Name.readType c₂).map fun type => names.map fun name => ⟨name, type⟩).weaken (by omega)

/-- Reads groups of parameters separated by semicolons, at least one. -/
def Binding.readParameters (c : Cursor) : Reading c.remaining (List Binding) :=
  (Binding.readGroup c).bind fun group c₁ _ =>
    if c₁.isAt (.mark .semicolon) then
      (c₁.eat (.mark .semicolon)).bind fun _ c₂ _ =>
        ((Binding.readParameters c₂).map fun more => group ++ more).weaken (by omega)
    else .done group c₁ (by omega)
termination_by c.remaining

/-- Reads groups of variables, each ended by a semicolon, at least one and as long as a name
follows. -/
def Binding.readVariables (c : Cursor) : Reading c.remaining (List Binding) :=
  (Binding.readGroup c).bind fun group c₁ _ =>
    (c₁.eat (.mark .semicolon)).bind fun _ c₂ _ =>
      if c₂.isAt .name then
        ((Binding.readVariables c₂).map fun more => group ++ more).weaken (by omega)
      else .done group c₂ (by omega)
termination_by c.remaining

/-- Reads the variables of a block, if it declares any. -/
def Binding.readSection (c : Cursor) : Reading (c.remaining + 1) (List Binding) :=
  if c.isAt (.keyword .var) then
    (c.eat (.keyword .var)).bind fun _ c₁ _ => (Binding.readVariables c₁).weaken (by omega)
  else .done [] c (Nat.lt_succ_self _)

/-- Reads the parameters of a procedure, if it has a list of them. -/
def Binding.readParameterList (c : Cursor) : Reading (c.remaining + 1) (List Binding) :=
  if c.isAt (.mark .leftParen) then
    (c.eat (.mark .leftParen)).bind fun _ c₁ _ =>
      (Binding.readParameters c₁).bind fun parameters c₂ _ =>
        ((c₂.eat (.mark .rightParen)).map fun _ => parameters).weaken (by omega)
  else .done [] c (Nat.lt_succ_self _)

mutual

/-- Reads a block: variables, procedures, and the statements of its body. -/
def Block.read (c : Cursor) : Reading c.remaining Block :=
  (Binding.readSection c).bind fun bindings c₁ _ =>
    (Declaration.readProcedures c₁).bind fun procedures c₂ _ =>
      ((Statement.readCompound c₂).map fun body =>
        ⟨bindings.map .variable ++ procedures, body⟩).weaken (by omega)
termination_by 3 * c.remaining + 2

/-- Reads procedures, each ended by a semicolon, as long as there are any. -/
def Declaration.readProcedures (c : Cursor) : Reading (c.remaining + 1) (List Declaration) :=
  if c.isAt (.keyword .procedure) then
    (Declaration.readProcedure c).bind fun first c₁ _ =>
      (c₁.eat (.mark .semicolon)).bind fun _ c₂ _ =>
        ((Declaration.readProcedures c₂).map fun more => first :: more).weaken (by omega)
  else .done [] c (Nat.lt_succ_self _)
termination_by 3 * c.remaining + 1

/-- Reads a procedure. -/
def Declaration.readProcedure (c : Cursor) : Reading c.remaining Declaration :=
  (c.eat (.keyword .procedure)).bind fun opening c₁ _ =>
    (Name.read c₁).bind fun name c₂ _ =>
      (Binding.readParameterList c₂).bind fun parameters c₃ _ =>
        (c₃.eat (.mark .semicolon)).bind fun _ c₄ _ =>
          ((Block.read c₄).map fun block =>
            .procedure name.text opening.line parameters block.declarations block.body).weaken
              (by omega)
termination_by 3 * c.remaining

end

/-! ## Programs -/

/-- Reads a program up to its final point. -/
def Program.read (c : Cursor) : Reading c.remaining Program :=
  (c.eat (.keyword .program)).bind fun _ c₁ _ =>
    (Name.read c₁).bind fun name c₂ _ =>
      (c₂.eat (.mark .semicolon)).bind fun _ c₃ _ =>
        (Block.read c₃).bind fun block c₄ _ =>
          ((c₄.eat (.mark .dot)).map fun _ => ⟨name.text, block⟩).weaken (by omega)

/-- Reads a program that nothing follows. -/
def Program.readAll (c : Cursor) : Except SyntaxError Program :=
  match Program.read c with
  | .done program after _ =>
      if after.isAt .finish then .ok program else .error (.trailing after.current.culprit)
  | .failed cause _ => .error cause

/-- The program that a source text describes. -/
def Program.ofSource (source : String) : Except SyntaxError Program := do
  Program.readAll (← Cursor.ofSource source)

end PocketPascal
