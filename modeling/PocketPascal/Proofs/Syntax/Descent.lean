import Mathlib.Logic.Function.Iterate
import PocketPascal.Syntax.Reading

/-!
# The readers step by step

The readers of programs call each other, and between two calls they look at the current token and
eat it. Here each of them is a routine whose code says what it does step by step, and a descent runs
the code: it keeps what remains to be done for the callers on a stack. The main statement is that
the descent comes to an end for every routine on every cursor, with the outcome of the reader.
-/

namespace PocketPascal

/-! ## Routines and their code -/

theorem Kind.name_ne_finish : Kind.name ≠ .finish := nofun

theorem Kind.integer_ne_finish : Kind.integer ≠ .finish := nofun

theorem Kind.real_ne_finish : Kind.real ≠ .finish := nofun

theorem Kind.mark_ne_finish (mark : Mark) : Kind.mark mark ≠ .finish := nofun

theorem Kind.keyword_ne_finish (keyword : Keyword) : Kind.keyword keyword ≠ .finish := nofun

/-- The routines, by what they give. -/
inductive Routine : Type → Type where
  /-- A name. -/
  | name : Routine Name
  /-- A number of the given kind. -/
  | literal (kind : Kind) (solid : kind ≠ .finish) : Routine Expr
  /-- An expression. -/
  | expr : Routine Expr
  /-- The rest of a chain of sums. -/
  | sum (left : Expr) : Routine Expr
  /-- A term. -/
  | term : Routine Expr
  /-- The rest of a chain of products. -/
  | product (left : Expr) : Routine Expr
  /-- A factor. -/
  | factor : Routine Expr
  /-- An assignment. -/
  | assignment : Routine Statement
  /-- The statements between two words that open and close them. -/
  | compound : Routine (List Statement)
  /-- Statements separated by semicolons. -/
  | statements : Routine (List Statement)
  /-- A statement. -/
  | statement : Routine Statement
  /-- Names separated by commas. -/
  | names : Routine (List Name)
  /-- The name of a type. -/
  | type : Routine Name
  /-- Names with their common type. -/
  | group : Routine (List Binding)
  /-- Groups of parameters. -/
  | parameterGroups : Routine (List Binding)
  /-- Groups of variables. -/
  | variableGroups : Routine (List Binding)
  /-- The variables of a block, if it declares any. -/
  | variableSection : Routine (List Binding)
  /-- The parameters of a procedure, if it has a list of them. -/
  | parameterList : Routine (List Binding)
  /-- A block. -/
  | block : Routine Block
  /-- Procedures, as long as there are any. -/
  | procedures : Routine (List Declaration)
  /-- A procedure. -/
  | procedure : Routine Declaration
  /-- A program up to its final point. -/
  | program : Routine Program
  /-- A program that nothing follows. -/
  | source : Routine Program

/-- What is to be done until a value is given. -/
inductive Code (α : Type) : Type 1 where
  /-- Gives a value. -/
  | give (value : α)
  /-- Fails, with everything eaten so far. -/
  | object (cause : SyntaxError)
  /-- Looks at the current token. -/
  | look (next : Token → Code α)
  /-- Eats the current token if it has the kind, and fails if not. -/
  | eat (kind : Kind) (solid : kind ≠ .finish) (next : Token → Code α)
  /-- Calls a routine, and goes on with what it gives. -/
  | call {β : Type} (routine : Routine β) (next : β → Code α)

/-- Eats a mark. -/
def Code.eatMark {α : Type} (mark : Mark) (next : Token → Code α) : Code α :=
  .eat (.mark mark) (Kind.mark_ne_finish mark) next

/-- Eats a keyword. -/
def Code.eatKeyword {α : Type} (keyword : Keyword) (next : Token → Code α) : Code α :=
  .eat (.keyword keyword) (Kind.keyword_ne_finish keyword) next

/-- Goes on in one way if the current token has the kind, and in another way if not. -/
def Code.ifAt {α : Type} (kind : Kind) (yes no : Code α) : Code α :=
  .look fun current => if current.kind = kind then yes else no

/-- The code of a routine. -/
def Routine.code : {α : Type} → Routine α → Code α
  | _, .name => .eat .name Kind.name_ne_finish fun t => .give ⟨t.text, t.line⟩
  | _, .literal kind solid => .eat kind solid fun t =>
      match t.value? with
      | some value => .give (.literal value t.line)
      | none => .object (.literalTooLarge t.text t.line)
  | _, .expr => .call .term fun left => .call (.sum left) .give
  | _, .sum left => .look fun current =>
      match BinaryOperator.ofSumKind? current.kind with
      | none => .give left
      | some op => .eat op.kind op.kind_ne_finish fun t =>
          .call .term fun right => .call (.sum (.binary op left right t.line)) .give
  | _, .term => .call .factor fun left => .call (.product left) .give
  | _, .product left => .look fun current =>
      match BinaryOperator.ofProductKind? current.kind with
      | none => .give left
      | some op => .eat op.kind op.kind_ne_finish fun t =>
          .call .factor fun right => .call (.product (.binary op left right t.line)) .give
  | _, .factor => .look fun current =>
      match UnaryOperator.ofKind? current.kind with
      | some op => .eat op.kind op.kind_ne_finish fun t =>
          .call .factor fun operand => .give (.unary op operand t.line)
      | none =>
          match current.kind with
          | .integer => .call (.literal .integer Kind.integer_ne_finish) .give
          | .real => .call (.literal .real Kind.real_ne_finish) .give
          | .mark .leftParen => .eatMark .leftParen fun _ => .call .expr fun inner =>
              .eatMark .rightParen fun _ => .give inner
          | _ => .call .name fun name => .give (.variable name)
  | _, .assignment => .call .name fun target => .eatMark .assign fun t =>
      .call .expr fun value => .give (.assign target value t.line)
  | _, .compound => .eatKeyword .begin fun _ => .call .statements fun body =>
      .eatKeyword .finish fun _ => .give body
  | _, .statements => .call .statement fun first =>
      .ifAt (.mark .semicolon)
        (.eatMark .semicolon fun _ => .call .statements fun more => .give (first :: more))
        (.give [first])
  | _, .statement => .look fun current =>
      match current.kind with
      | .keyword .begin => .call .compound fun body => .give (.compound body)
      | .name => .call .assignment .give
      | _ => .give .empty
  | _, .names => .call .name fun first =>
      .ifAt (.mark .comma)
        (.eatMark .comma fun _ => .call .names fun more => .give (first :: more))
        (.give [first])
  | _, .type => .look fun current =>
      if h : current.kind.isType then
        .eat current.kind (Kind.ne_finish_of_isType h) fun t => .give ⟨t.text, t.line⟩
      else .object (.noType current.culprit)
  | _, .group => .call .names fun names => .eatMark .colon fun _ =>
      .call .type fun type => .give (names.map fun name => ⟨name, type⟩)
  | _, .parameterGroups => .call .group fun group =>
      .ifAt (.mark .semicolon)
        (.eatMark .semicolon fun _ => .call .parameterGroups fun more => .give (group ++ more))
        (.give group)
  | _, .variableGroups => .call .group fun group => .eatMark .semicolon fun _ =>
      .ifAt .name (.call .variableGroups fun more => .give (group ++ more)) (.give group)
  | _, .variableSection =>
      .ifAt (.keyword .var) (.eatKeyword .var fun _ => .call .variableGroups .give) (.give [])
  | _, .parameterList =>
      .ifAt (.mark .leftParen)
        (.eatMark .leftParen fun _ => .call .parameterGroups fun parameters =>
          .eatMark .rightParen fun _ => .give parameters)
        (.give [])
  | _, .block => .call .variableSection fun bindings => .call .procedures fun procedures =>
      .call .compound fun body => .give ⟨bindings.map .variable ++ procedures, body⟩
  | _, .procedures =>
      .ifAt (.keyword .procedure)
        (.call .procedure fun first => .eatMark .semicolon fun _ =>
          .call .procedures fun more => .give (first :: more))
        (.give [])
  | _, .procedure => .eatKeyword .procedure fun opening => .call .name fun name =>
      .call .parameterList fun parameters => .eatMark .semicolon fun _ =>
        .call .block fun block =>
          .give (.procedure name.text opening.line parameters block.declarations block.body)
  | _, .program => .eatKeyword .program fun _ => .call .name fun name =>
      .eatMark .semicolon fun _ => .call .block fun block => .eatMark .dot fun _ =>
        .give ⟨name.text, block⟩
  | _, .source => .call .program fun program => .look fun current =>
      if current.kind = .finish then .give program else .object (.trailing current.culprit)

/-- Reads a program that nothing follows, with the position after it. -/
def Program.readAlone (c : Cursor) : Reading c.remaining Program :=
  (Program.read c).bind fun program c₁ lt =>
    if c₁.isAt .finish then .done program c₁ lt else .failed (.trailing c₁.current.culprit) c₁

theorem Program.result_readAlone (c : Cursor) :
    (Program.readAlone c).result = Program.readAll c := by
  unfold Program.readAlone Program.readAll
  cases Program.read c with
  | done program c' lt =>
    simp only [Reading.bind]
    split <;> rfl
  | failed cause c' => rfl

/-- The same outcome under the next bound. -/
def Reading.loosen {α : Type} {n : Nat} (r : Reading n α) : Reading (n + 1) α :=
  r.weaken (Nat.le_succ n)

/-- The reader of a routine. -/
def Routine.read : {α : Type} → Routine α → (c : Cursor) → Reading (c.remaining + 1) α
  | _, .name, c => (Name.read c).loosen
  | _, .literal kind solid, c => (Expr.readLiteral c kind solid).loosen
  | _, .expr, c => (Expr.read c).loosen
  | _, .sum left, c => Expr.readSum left c
  | _, .term, c => (Expr.readTerm c).loosen
  | _, .product left, c => Expr.readProduct left c
  | _, .factor, c => (Expr.readFactor c).loosen
  | _, .assignment, c => (Statement.readAssignment c).loosen
  | _, .compound, c => (Statement.readCompound c).loosen
  | _, .statements, c => Statement.readList c
  | _, .statement, c => Statement.read c
  | _, .names, c => (Name.readList c).loosen
  | _, .type, c => (Name.readType c).loosen
  | _, .group, c => (Binding.readGroup c).loosen
  | _, .parameterGroups, c => (Binding.readParameters c).loosen
  | _, .variableGroups, c => (Binding.readVariables c).loosen
  | _, .variableSection, c => Binding.readSection c
  | _, .parameterList, c => Binding.readParameterList c
  | _, .block, c => (Block.read c).loosen
  | _, .procedures, c => Declaration.readProcedures c
  | _, .procedure, c => (Declaration.readProcedure c).loosen
  | _, .program, c => (Program.read c).loosen
  | _, .source, c => (Program.readAlone c).loosen

/-! ## Descents -/

/-- What the callers go on with, the innermost one on top. -/
inductive Stack (γ : Type) : Type → Type 1 where
  /-- There is no caller. -/
  | empty : Stack γ γ
  /-- The innermost caller, and the others. -/
  | push {α β : Type} (next : α → Code β) (rest : Stack γ β) : Stack γ α

/-- A descent at work, or at its end. -/
inductive Descent (γ : Type) : Type 1 where
  /-- The code is run on the cursor. -/
  | running {α : Type} (cursor : Cursor) (code : Code α) (stack : Stack γ α)
  /-- The descent has come to an end on the cursor. -/
  | halted (cursor : Cursor) (result : Except SyntaxError γ)

namespace Descent

variable {α β γ : Type} {n m : Nat}

/-- The descent that is about to run a routine on a cursor. -/
def start (routine : Routine γ) (c : Cursor) : Descent γ := .running c routine.code .empty

/-- One step of a descent. At its end it stays as it is. -/
def step : Descent γ → Descent γ
  | .running c (.give value) .empty => .halted c (.ok value)
  | .running c (.give value) (.push next rest) => .running c (next value) rest
  | .running c (.object cause) _ => .halted c (.error cause)
  | .running c (.look next) stack => .running c (next c.current) stack
  | .running c (.eat kind solid next) stack =>
      match c.eat kind solid with
      | .done t c' _ => .running c' (next t) stack
      | .failed cause c' => .halted c' (.error cause)
  | .running c (.call routine next) stack => .running c routine.code (.push next stack)
  | .halted c result => .halted c result

theorem step_eat_of_done {c c' : Cursor} {kind : Kind} {solid : kind ≠ .finish} {t : Token}
    {lt : c'.remaining < c.remaining} {next : Token → Code α} {stack : Stack γ α}
    (h : c.eat kind solid = .done t c' lt) :
    step (.running c (.eat kind solid next) stack) = .running c' (next t) stack := by
  simp [step, h]

theorem step_eat_of_failed {c c' : Cursor} {kind : Kind} {solid : kind ≠ .finish}
    {cause : SyntaxError} {next : Token → Code α} {stack : Stack γ α}
    (h : c.eat kind solid = .failed cause c') :
    step (.running c (.eat kind solid next) stack) = .halted c' (.error cause) := by
  simp [step, h]

/-- Some steps lead from one state of a descent to another one. -/
def Reaches (a b : Descent γ) : Prop := ∃ n, step^[n] a = b

theorem Reaches.refl (a : Descent γ) : a.Reaches a := ⟨0, rfl⟩

theorem Reaches.trans {a b d : Descent γ} (h : a.Reaches b) (h' : b.Reaches d) : a.Reaches d := by
  obtain ⟨n, rfl⟩ := h
  obtain ⟨m, rfl⟩ := h'
  exact ⟨m + n, Function.iterate_add_apply step m n a⟩

theorem Reaches.of_step {a b : Descent γ} (h : a.step.Reaches b) : a.Reaches b := by
  obtain ⟨n, rfl⟩ := h
  exact ⟨n + 1, Function.iterate_succ_apply step n a⟩

/-- The descent behind a reading, with the callers on the stack: it is about to go on with the
value, or it has come to an end. -/
def behind (r : Reading n α) (stack : Stack γ α) : Descent γ :=
  match r with
  | .done value c _ => .running c (.give value) stack
  | .failed cause c => .halted c (.error cause)

end Descent

/-! ## Code that does what a reader does -/

namespace Code

open Reading

variable {α β : Type} {n m : Nat} {c : Cursor}

/-- The code does the reading, whatever is on the stack. -/
def Does (code : Code α) (c : Cursor) (r : Reading n α) : Prop :=
  ∀ (γ : Type) (stack : Stack γ α), (Descent.running c code stack).Reaches (Descent.behind r stack)

theorem does_give {value : α} {lt : c.remaining < n} : (give value).Does c (.done value c lt) :=
  fun _ _ => .refl _

theorem does_object {cause : SyntaxError} :
    (object cause : Code α).Does c (.failed cause c : Reading n α) :=
  fun _ _ => .of_step (.refl _)

theorem does_look {next : Token → Code α} {r : Reading n α} (h : (next c.current).Does c r) :
    (look next).Does c r :=
  fun γ stack => .of_step (h γ stack)

theorem does_look_kind {kind : Kind} {yes no : Token → Code α} {r r' : Reading n α}
    (h : (yes c.current).Does c r) (h' : (no c.current).Does c r') :
    (look fun current => if current.kind = kind then yes current else no current).Does c
      (if c.isAt kind then r else r') := by
  refine does_look ?_
  by_cases hk : c.current.kind = kind
  · have hat : c.isAt kind := decide_eq_true hk
    rw [if_pos hk, if_pos hat]
    exact h
  · have hat : ¬c.isAt kind := by simpa [Cursor.isAt] using hk
    rw [if_neg hk, if_neg hat]
    exact h'

theorem does_ifAt {kind : Kind} {yes no : Code α} {r r' : Reading n α} (h : yes.Does c r)
    (h' : no.Does c r') : (ifAt kind yes no).Does c (if c.isAt kind then r else r') :=
  does_look_kind h h'

theorem does_eat {kind : Kind} {solid : kind ≠ .finish} {code : Token → Code α}
    {next : Token → (c' : Cursor) → c'.remaining < c.remaining → Reading m α}
    (h : ∀ t c' lt, (code t).Does c' (next t c' lt)) :
    (eat kind solid code).Does c ((c.eat kind solid).bind next) := by
  intro γ stack
  refine .of_step ?_
  cases heat : c.eat kind solid with
  | done t c' lt =>
    rw [Descent.step_eat_of_done heat]
    exact h t c' lt γ stack
  | failed cause c' =>
    rw [Descent.step_eat_of_failed heat]
    exact .refl _

theorem does_call {routine : Routine β} {code : β → Code α} {r : Reading n β}
    {next : β → (c' : Cursor) → c'.remaining < n → Reading m α} (hr : routine.code.Does c r)
    (h : ∀ value c' lt, (code value).Does c' (next value c' lt)) :
    (call routine code).Does c (r.bind next) := by
  intro γ stack
  have hcallee := hr γ (.push code stack)
  refine .of_step (Descent.Reaches.trans hcallee ?_)
  cases r with
  | done value c' lt => exact .of_step (h value c' lt γ stack)
  | failed cause c' => exact .refl _

theorem does_call_give {routine : Routine α} {r : Reading n α} (hr : routine.code.Does c r) :
    (call routine give).Does c r := by
  have h : (call routine give).Does c (r.bind fun value c' lt => .done value c' lt) :=
    does_call hr fun _ _ _ => does_give
  cases r <;> exact h

theorem Does.weaken {code : Code α} {r : Reading n α} (h : code.Does c r) (hle : n ≤ m) :
    code.Does c (r.weaken hle) := by
  cases r <;> exact h

/-- Making another value of the one that was read is giving that value instead. -/
theorem map_eq_bind (f : α → β) (r : Reading n α) :
    r.map f = r.bind fun value c' lt => .done (f value) c' lt := by
  cases r <;> rfl

theorem does_eat_map {kind : Kind} {solid : kind ≠ .finish} (f : Token → α) :
    (eat kind solid fun t => give (f t)).Does c ((c.eat kind solid).map f) := by
  rw [map_eq_bind]
  exact does_eat fun _ _ _ => does_give

theorem does_call_map {routine : Routine β} {r : Reading n β} (hr : routine.code.Does c r)
    (f : β → α) : (call routine fun value => give (f value)).Does c (r.map f) := by
  rw [map_eq_bind]
  exact does_call hr fun _ _ _ => does_give

end Code

open Code Routine

/-! ## The readers of expressions -/

theorem does_name (c : Cursor) : Routine.name.code.Does c (Name.read c) := by
  rw [Name.read]
  exact does_eat_map _

theorem does_literal (c : Cursor) {kind : Kind} (solid : kind ≠ .finish) :
    (literal kind solid).code.Does c (Expr.readLiteral c kind solid) := by
  refine does_eat fun t c₁ lt => ?_
  cases t.value? with
  | some value => exact does_give
  | none => exact does_object

theorem does_expressions :
    (∀ c, expr.code.Does c (Expr.read c)) ∧
    (∀ left c, (sum left).code.Does c (Expr.readSum left c)) ∧
    (∀ c, term.code.Does c (Expr.readTerm c)) ∧
    (∀ left c, (product left).code.Does c (Expr.readProduct left c)) ∧
    (∀ c, factor.code.Does c (Expr.readFactor c)) := by
  refine Expr.read.mutual_induct _ _ _ _ _ ?_ ?_ ?_ ?_ ?_ ?_ ?_ ?_ ?_ ?_ ?_
  · -- an expression
    intro c hterm hsum
    rw [Expr.read]
    exact does_call hterm fun left c₁ lt => (does_call_give (hsum left c₁ lt)).weaken _
  · -- a chain of sums, at its end
    intro left c hop
    rw [Expr.readSum, hop]
    refine does_look ?_
    rw [hop]
    exact does_give
  · -- a chain of sums that goes on
    intro left c op hop hterm hsum
    rw [Expr.readSum, hop]
    refine does_look ?_
    rw [hop]
    refine does_eat fun t c₁ lt => does_call (hterm c₁ lt) fun right c₂ lt' => ?_
    exact (does_call_give (hsum t c₁ lt right c₂ lt')).weaken _
  · -- a term
    intro c hfactor hproduct
    rw [Expr.readTerm]
    exact does_call hfactor fun left c₁ lt => (does_call_give (hproduct left c₁ lt)).weaken _
  · -- a chain of products, at its end
    intro left c hop
    rw [Expr.readProduct, hop]
    refine does_look ?_
    rw [hop]
    exact does_give
  · -- a chain of products that goes on
    intro left c op hop hfactor hproduct
    rw [Expr.readProduct, hop]
    refine does_look ?_
    rw [hop]
    refine does_eat fun t c₁ lt => does_call (hfactor c₁ lt) fun right c₂ lt' => ?_
    exact (does_call_give (hproduct t c₁ lt right c₂ lt')).weaken _
  · -- a sign
    intro c op hop ih
    rw [Expr.readFactor, hop]
    refine does_look ?_
    rw [hop]
    refine does_eat fun t c₁ lt => ?_
    exact (does_call_map (ih c₁ lt) _).weaken _
  · -- a whole number
    intro c hop hk
    rw [Expr.readFactor, hop]
    refine does_look ?_
    rw [hop]
    simp only [hk]
    exact does_call_give (does_literal c _)
  · -- a floating-point number
    intro c hop hk
    rw [Expr.readFactor, hop]
    refine does_look ?_
    rw [hop]
    simp only [hk]
    exact does_call_give (does_literal c _)
  · -- parentheses
    intro c hop hk ih
    rw [Expr.readFactor, hop]
    refine does_look ?_
    rw [hop]
    simp only [hk]
    refine does_eat fun _ c₁ lt => does_call (ih c₁ lt) fun inner c₂ _ => ?_
    exact (does_eat_map _).weaken _
  · -- a name
    intro c hop hi hr hp
    rw [Expr.readFactor, hop]
    refine does_look ?_
    rw [hop]
    simp only
    exact does_call_map (does_name c) _

/-! ## The readers of statements -/

theorem does_assignment (c : Cursor) : assignment.code.Does c (Statement.readAssignment c) := by
  refine does_call (does_name c) fun _ c₁ _ => does_eat fun _ c₂ _ => ?_
  exact (does_call_map (does_expressions.1 c₂) _).weaken _

theorem does_statements :
    (∀ c, compound.code.Does c (Statement.readCompound c)) ∧
    (∀ c, statements.code.Does c (Statement.readList c)) ∧
    (∀ c, statement.code.Does c (Statement.read c)) := by
  refine Statement.readCompound.mutual_induct _ _ _ ?_ ?_ ?_ ?_ ?_
  · -- a compound statement
    intro c ih
    rw [Statement.readCompound]
    refine does_eat fun _ c₁ lt => does_call (ih c₁ lt) fun body c₂ _ => ?_
    exact (does_eat_map _).weaken _
  · -- statements
    intro c hfirst hrest
    rw [Statement.readList]
    refine does_call hfirst fun first c₁ lt => does_ifAt ?_ does_give
    refine does_eat fun _ c₂ lt' => ?_
    exact (does_call_map (hrest c₁ lt c₂ lt') _).weaken _
  · -- a compound statement as a statement
    intro c hc hcompound
    rw [Statement.read]
    refine does_look ?_
    simp only [hc]
    exact (does_call_map hcompound _).weaken _
  · -- an assignment
    intro c hc
    rw [Statement.read]
    refine does_look ?_
    simp only [hc]
    exact (does_call_give (does_assignment c)).weaken _
  · -- the empty statement
    intro c hb hn
    rw [Statement.read]
    refine does_look ?_
    simp only
    exact does_give

/-! ## The readers of declarations -/

theorem does_names (c : Cursor) : names.code.Does c (Name.readList c) := by
  induction c using Name.readList.induct with
  | case1 c ih =>
    rw [Name.readList]
    refine does_call (does_name c) fun first c₁ lt => does_ifAt ?_ does_give
    refine does_eat fun _ c₂ lt' => ?_
    exact (does_call_map (ih c₁ lt c₂ lt') _).weaken _

theorem does_type (c : Cursor) : Routine.type.code.Does c (Name.readType c) := by
  unfold Name.readType
  refine does_look ?_
  split
  · exact does_eat_map _
  · exact does_object

theorem does_group (c : Cursor) : group.code.Does c (Binding.readGroup c) := by
  refine does_call (does_names c) fun _ c₁ _ => does_eat fun _ c₂ _ => ?_
  exact (does_call_map (does_type c₂) _).weaken _

theorem does_parameterGroups (c : Cursor) :
    parameterGroups.code.Does c (Binding.readParameters c) := by
  induction c using Binding.readParameters.induct with
  | case1 c ih =>
    rw [Binding.readParameters]
    refine does_call (does_group c) fun group c₁ lt => does_ifAt ?_ does_give
    refine does_eat fun _ c₂ lt' => ?_
    exact (does_call_map (ih c₁ lt c₂ lt') _).weaken _

theorem does_variableGroups (c : Cursor) :
    variableGroups.code.Does c (Binding.readVariables c) := by
  induction c using Binding.readVariables.induct with
  | case1 c ih =>
    rw [Binding.readVariables]
    refine does_call (does_group c) fun group c₁ lt => does_eat fun _ c₂ lt' => ?_
    refine does_ifAt ?_ does_give
    exact (does_call_map (ih c₁ lt c₂ lt') _).weaken _

theorem does_variableSection (c : Cursor) :
    variableSection.code.Does c (Binding.readSection c) :=
  does_ifAt (does_eat fun _ c₁ _ => (does_call_give (does_variableGroups c₁)).weaken _) does_give

theorem does_parameterList (c : Cursor) :
    parameterList.code.Does c (Binding.readParameterList c) := by
  refine does_ifAt (does_eat fun _ c₁ _ => ?_) does_give
  refine does_call (does_parameterGroups c₁) fun _ c₂ _ => ?_
  exact (does_eat_map _).weaken _

theorem does_blocks :
    (∀ c, block.code.Does c (Block.read c)) ∧
    (∀ c, procedures.code.Does c (Declaration.readProcedures c)) ∧
    (∀ c, procedure.code.Does c (Declaration.readProcedure c)) := by
  refine Block.read.mutual_induct _ _ _ ?_ ?_ ?_ ?_
  · -- a block
    intro c ih
    rw [Block.read]
    refine does_call (does_variableSection c) fun bindings c₁ lt => ?_
    refine does_call (ih c₁ lt) fun _ c₂ _ => ?_
    exact (does_call_map (does_statements.1 c₂) _).weaken _
  · -- procedures, of which there is one
    intro c hc hfirst hrest
    rw [Declaration.readProcedures]
    refine does_ifAt ?_ does_give
    refine does_call hfirst fun first c₁ lt => does_eat fun _ c₂ lt' => ?_
    exact (does_call_map (hrest c₁ lt c₂ lt') _).weaken _
  · -- no procedures
    intro c hc
    have hother : ¬c.current.kind = .keyword .procedure := by simpa [Cursor.isAt] using hc
    rw [Declaration.readProcedures, if_neg hc]
    refine does_look ?_
    rw [if_neg hother]
    exact does_give
  · -- a procedure
    intro c ih
    rw [Declaration.readProcedure]
    refine does_eat fun opening c₁ lt₁ => does_call (does_name c₁) fun name c₂ lt₂ => ?_
    refine does_call (does_parameterList c₂) fun parameters c₃ lt₃ => ?_
    refine does_eat fun _ c₄ lt₄ => ?_
    exact (does_call_map (ih c₁ lt₁ c₂ lt₂ c₃ lt₃ c₄ lt₄) _).weaken _

theorem does_program (c : Cursor) : program.code.Does c (Program.read c) := by
  refine does_eat fun _ c₁ _ => does_call (does_name c₁) fun _ c₂ _ => ?_
  refine does_eat fun _ c₃ _ => does_call (does_blocks.1 c₃) fun _ c₄ _ => ?_
  exact (does_eat_map _).weaken _

theorem does_source (c : Cursor) : source.code.Does c (Program.readAlone c) :=
  does_call (does_program c) fun _ _ _ => does_look_kind does_give does_object

/-! ## All readers -/

/-- The code of a routine does what its reader does. -/
theorem does_code {α : Type} (routine : Routine α) (c : Cursor) :
    routine.code.Does c (routine.read c) := by
  have hle : c.remaining ≤ c.remaining + 1 := Nat.le_succ _
  cases routine with
  | name => exact (does_name c).weaken hle
  | literal kind solid => exact (does_literal c solid).weaken hle
  | expr => exact (does_expressions.1 c).weaken hle
  | sum left => exact does_expressions.2.1 left c
  | term => exact (does_expressions.2.2.1 c).weaken hle
  | product left => exact does_expressions.2.2.2.1 left c
  | factor => exact (does_expressions.2.2.2.2 c).weaken hle
  | assignment => exact (does_assignment c).weaken hle
  | compound => exact (does_statements.1 c).weaken hle
  | statements => exact does_statements.2.1 c
  | statement => exact does_statements.2.2 c
  | names => exact (does_names c).weaken hle
  | type => exact (does_type c).weaken hle
  | group => exact (does_group c).weaken hle
  | parameterGroups => exact (does_parameterGroups c).weaken hle
  | variableGroups => exact (does_variableGroups c).weaken hle
  | variableSection => exact does_variableSection c
  | parameterList => exact does_parameterList c
  | block => exact (does_blocks.1 c).weaken hle
  | procedures => exact does_blocks.2.1 c
  | procedure => exact (does_blocks.2.2 c).weaken hle
  | program => exact (does_program c).weaken hle
  | source => exact (does_source c).weaken hle

/-- The descent comes to an end for every routine, with the outcome of its reader. -/
theorem Descent.reaches_halted {α : Type} (routine : Routine α) (c : Cursor) :
    (start routine c).Reaches (.halted (routine.read c).after (routine.read c).result) := by
  have hbehind := does_code routine c α .empty
  cases hr : routine.read c with
  | done value c' lt =>
    rw [hr] at hbehind
    exact hbehind.trans (.of_step (.refl _))
  | failed cause c' =>
    rw [hr] at hbehind
    exact hbehind

end PocketPascal
