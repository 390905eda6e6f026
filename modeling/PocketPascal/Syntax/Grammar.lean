import PocketPascal.Syntax

/-!
# The grammar

When a sequence of tokens is written for a tree. The relations follow the grammar rule by rule and
say nothing about how a tree is found:

* chains of operators are left-recursive, so their trees nest to the left; prefix signs nest to the
  right;
* names with a common type stand for one binding each;
* parentheses and separators leave no trace in the tree.

The value of a number is a parameter. With a relation that holds of the numbers in range only, the
sequences are the programs that can be read; with the relation that always holds they are the
sentences of the grammar, whatever the sizes of their numbers.
-/

namespace PocketPascal.Grammar

/-! ## Signs and types -/

/-- A token of the kind is the sign of a sum. -/
inductive SumSign : Kind → BinaryOperator → Prop where
  /-- A plus adds. -/
  | plus : SumSign (.mark .plus) .add
  /-- A minus subtracts. -/
  | minus : SumSign (.mark .minus) .sub

/-- A token of the kind is the sign of a product. -/
inductive ProductSign : Kind → BinaryOperator → Prop where
  /-- An asterisk multiplies. -/
  | times : ProductSign (.mark .times) .mul
  /-- The word for division. -/
  | div : ProductSign (.keyword .div) .div
  /-- A slash divides in floating-point numbers. -/
  | slash : ProductSign (.mark .slash) .slash

/-- A token of the kind is a sign in front of a factor. -/
inductive PrefixSign : Kind → UnaryOperator → Prop where
  /-- A plus changes nothing. -/
  | plus : PrefixSign (.mark .plus) .plus
  /-- A minus negates. -/
  | minus : PrefixSign (.mark .minus) .minus

/-- A token of the kind is the word for a type. -/
inductive TypeWord : Kind → Prop where
  /-- The word for whole numbers. -/
  | integer : TypeWord (.keyword .integer)
  /-- The word for floating-point numbers. -/
  | real : TypeWord (.keyword .real)

theorem sumSign_iff {kind : Kind} {op : BinaryOperator} :
    SumSign kind op ↔ BinaryOperator.ofSumKind? kind = some op := by
  constructor
  · intro h
    cases h <;> rfl
  · intro h
    unfold BinaryOperator.ofSumKind? at h
    split at h <;> cases h
    · exact .plus
    · exact .minus

theorem productSign_iff {kind : Kind} {op : BinaryOperator} :
    ProductSign kind op ↔ BinaryOperator.ofProductKind? kind = some op := by
  constructor
  · intro h
    cases h <;> rfl
  · intro h
    unfold BinaryOperator.ofProductKind? at h
    split at h <;> cases h
    · exact .times
    · exact .div
    · exact .slash

theorem prefixSign_iff {kind : Kind} {op : UnaryOperator} :
    PrefixSign kind op ↔ UnaryOperator.ofKind? kind = some op := by
  constructor
  · intro h
    cases h <;> rfl
  · intro h
    unfold UnaryOperator.ofKind? at h
    split at h <;> cases h
    · exact .plus
    · exact .minus

theorem typeWord_iff {kind : Kind} : TypeWord kind ↔ kind.isType := by
  constructor
  · intro h
    cases h <;> rfl
  · intro h
    unfold Kind.isType at h
    split at h
    · exact .integer
    · exact .real
    · cases h

/-! ## Expressions -/

section

variable (valued : Token → Value → Prop)

mutual

/-- The tokens are written for an expression. -/
inductive IsExpr : List Token → Expr → Prop where
  /-- A term is an expression. -/
  | term {ts : List Token} {e : Expr} (h : IsTerm ts e) : IsExpr ts e
  /-- A sum of an expression and a term. -/
  | sum {ls rs : List Token} {t : Token} {op : BinaryOperator} {left right : Expr}
      (hl : IsExpr ls left) (ht : SumSign t.kind op)
      (hr : IsTerm rs right) : IsExpr (ls ++ t :: rs) (.binary op left right t.line)

/-- The tokens are written for a term. -/
inductive IsTerm : List Token → Expr → Prop where
  /-- A factor is a term. -/
  | factor {ts : List Token} {e : Expr} (h : IsFactor ts e) : IsTerm ts e
  /-- A product of a term and a factor. -/
  | product {ls rs : List Token} {t : Token} {op : BinaryOperator} {left right : Expr}
      (hl : IsTerm ls left) (ht : ProductSign t.kind op)
      (hr : IsFactor rs right) : IsTerm (ls ++ t :: rs) (.binary op left right t.line)

/-- The tokens are written for a factor. -/
inductive IsFactor : List Token → Expr → Prop where
  /-- A number. -/
  | literal {t : Token} {value : Value} (ht : t.kind = .integer ∨ t.kind = .real)
      (hv : valued t value) : IsFactor [t] (.literal value t.line)
  /-- A name. -/
  | variable {t : Token} (ht : t.kind = .name) : IsFactor [t] (.variable ⟨t.text, t.line⟩)
  /-- A sign in front of a factor. -/
  | sign {t : Token} {ts : List Token} {op : UnaryOperator} {operand : Expr}
      (ht : PrefixSign t.kind op) (h : IsFactor ts operand) :
      IsFactor (t :: ts) (.unary op operand t.line)
  /-- An expression in parentheses. -/
  | parens {opening closing : Token} {ts : List Token} {e : Expr}
      (ho : opening.kind = .mark .leftParen) (h : IsExpr ts e)
      (hc : closing.kind = .mark .rightParen) : IsFactor (opening :: ts ++ [closing]) e

end

/-! ## Statements -/

mutual

/-- The tokens are written for a statement. -/
inductive IsStatement : List Token → Statement → Prop where
  /-- Nothing is the empty statement. -/
  | empty : IsStatement [] .empty
  /-- An assignment. -/
  | assign {target sign : Token} {ts : List Token} {value : Expr} (ht : target.kind = .name)
      (hs : sign.kind = .mark .assign) (h : IsExpr valued ts value) :
      IsStatement (target :: sign :: ts) (.assign ⟨target.text, target.line⟩ value sign.line)
  /-- Statements between two words. -/
  | compound {ts : List Token} {body : List Statement} (h : IsCompound ts body) :
      IsStatement ts (.compound body)

/-- The tokens are written for statements separated by semicolons, at least one. -/
inductive IsStatements : List Token → List Statement → Prop where
  /-- One statement. -/
  | last {ts : List Token} {s : Statement} (h : IsStatement ts s) : IsStatements ts [s]
  /-- A statement in front of others. -/
  | more {ts rest : List Token} {separator : Token} {s : Statement} {body : List Statement}
      (h : IsStatement ts s) (hs : separator.kind = .mark .semicolon)
      (hr : IsStatements rest body) : IsStatements (ts ++ separator :: rest) (s :: body)

/-- The tokens are written for a compound statement with the given body. -/
inductive IsCompound : List Token → List Statement → Prop where
  /-- Statements between the two words. -/
  | block {opening closing : Token} {ts : List Token} {body : List Statement}
      (ho : opening.kind = .keyword .begin) (h : IsStatements ts body)
      (hc : closing.kind = .keyword .finish) : IsCompound (opening :: ts ++ [closing]) body

end

end

/-! ## Bindings -/

/-- The tokens are written for names separated by commas, at least one. -/
inductive IsNames : List Token → List Name → Prop where
  /-- One name. -/
  | last {t : Token} (ht : t.kind = .name) : IsNames [t] [⟨t.text, t.line⟩]
  /-- A name in front of others. -/
  | more {t separator : Token} {ts : List Token} {names : List Name} (ht : t.kind = .name)
      (hs : separator.kind = .mark .comma) (h : IsNames ts names) :
      IsNames (t :: separator :: ts) (⟨t.text, t.line⟩ :: names)

/-- The tokens are written for names with a common type, one binding for each name. -/
inductive IsGroup : List Token → List Binding → Prop where
  /-- Names, a colon and a type. -/
  | typed {ts : List Token} {names : List Name} {colon type : Token} (h : IsNames ts names)
      (hc : colon.kind = .mark .colon) (ht : TypeWord type.kind) :
      IsGroup (ts ++ [colon, type]) (names.map fun name => ⟨name, ⟨type.text, type.line⟩⟩)

/-- The tokens are written for groups separated by semicolons, at least one. -/
inductive IsParameters : List Token → List Binding → Prop where
  /-- One group. -/
  | last {ts : List Token} {group : List Binding} (h : IsGroup ts group) : IsParameters ts group
  /-- A group in front of others. -/
  | more {ts rest : List Token} {separator : Token} {group bindings : List Binding}
      (h : IsGroup ts group) (hs : separator.kind = .mark .semicolon)
      (hr : IsParameters rest bindings) :
      IsParameters (ts ++ separator :: rest) (group ++ bindings)

/-- The tokens are written for groups that are each ended by a semicolon, at least one. -/
inductive IsVariables : List Token → List Binding → Prop where
  /-- One group. -/
  | last {ts : List Token} {ending : Token} {group : List Binding} (h : IsGroup ts group)
      (he : ending.kind = .mark .semicolon) : IsVariables (ts ++ [ending]) group
  /-- A group in front of others. -/
  | more {ts rest : List Token} {ending : Token} {group bindings : List Binding}
      (h : IsGroup ts group) (he : ending.kind = .mark .semicolon)
      (hr : IsVariables rest bindings) : IsVariables (ts ++ ending :: rest) (group ++ bindings)

/-- The tokens are written for the variables of a block. -/
inductive IsSection : List Token → List Binding → Prop where
  /-- There are none. -/
  | none : IsSection [] []
  /-- The word for variables, and the variables. -/
  | some {opening : Token} {ts : List Token} {bindings : List Binding}
      (ho : opening.kind = .keyword .var) (h : IsVariables ts bindings) :
      IsSection (opening :: ts) bindings

/-- The tokens are written for the parameters of a procedure. -/
inductive IsParameterList : List Token → List Binding → Prop where
  /-- There are none. -/
  | none : IsParameterList [] []
  /-- Parameters in parentheses. -/
  | some {opening closing : Token} {ts : List Token} {bindings : List Binding}
      (ho : opening.kind = .mark .leftParen) (h : IsParameters ts bindings)
      (hc : closing.kind = .mark .rightParen) :
      IsParameterList (opening :: ts ++ [closing]) bindings

/-! ## Blocks and programs -/

section

variable (valued : Token → Value → Prop)

mutual

/-- The tokens are written for a block: variables, then procedures, then the body. -/
inductive IsBlock : List Token → Block → Prop where
  /-- The three parts. -/
  | parts {vs ps bs : List Token} {bindings : List Binding} {procedures : List Declaration}
      {body : List Statement} (hv : IsSection vs bindings) (hp : IsProcedures ps procedures)
      (hb : IsCompound valued bs body) :
      IsBlock (vs ++ ps ++ bs) ⟨bindings.map .variable ++ procedures, body⟩

/-- The tokens are written for procedures, each ended by a semicolon. -/
inductive IsProcedures : List Token → List Declaration → Prop where
  /-- There are none. -/
  | none : IsProcedures [] []
  /-- A procedure in front of others. -/
  | more {ts rest : List Token} {ending : Token} {procedure : Declaration}
      {procedures : List Declaration} (h : IsProcedure ts procedure)
      (he : ending.kind = .mark .semicolon) (hr : IsProcedures rest procedures) :
      IsProcedures (ts ++ ending :: rest) (procedure :: procedures)

/-- The tokens are written for a procedure. -/
inductive IsProcedure : List Token → Declaration → Prop where
  /-- The word, the name, the parameters, a semicolon and the block. -/
  | parts {opening name separator : Token} {ps bs : List Token} {parameters : List Binding}
      {block : Block} (ho : opening.kind = .keyword .procedure) (hn : name.kind = .name)
      (hp : IsParameterList ps parameters) (hs : separator.kind = .mark .semicolon)
      (hb : IsBlock bs block) :
      IsProcedure (opening :: name :: ps ++ separator :: bs)
        (.procedure name.text opening.line parameters block.declarations block.body)

end

/-- The tokens are written for a program. -/
inductive IsProgram : List Token → Program → Prop where
  /-- The word, the name, a semicolon, the block and a point. -/
  | parts {opening name separator point : Token} {bs : List Token} {block : Block}
      (ho : opening.kind = .keyword .program) (hn : name.kind = .name)
      (hs : separator.kind = .mark .semicolon) (hb : IsBlock valued bs block)
      (hp : point.kind = .mark .dot) :
      IsProgram (opening :: name :: separator :: bs ++ [point]) ⟨name.text, block⟩

end

/-! ## Sentences -/

/-- The tokens form a program, whatever the sizes of its numbers. -/
def IsSentence (ts : List Token) : Prop := ∃ program, IsProgram (fun _ _ => True) ts program

/-- The tokens begin a program, whatever the sizes of its numbers. -/
def IsViable (ts : List Token) : Prop := ∃ more, IsSentence (ts ++ more)

end PocketPascal.Grammar
