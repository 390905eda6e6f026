import PocketPascal.Proofs.Syntax.Numbers
import PocketPascal.Proofs.Syntax.Statements
import PocketPascal.Proofs.Token.Words

/-!
# The words of trees

A tree is *writable* if its words can be read: its names are names and not reserved, its types are
the two built-in ones, its numbers are whole and not negative, its compound statements are not empty,
and its declarations list the variables before the procedures. This module and the next one go through
writable trees from the leaves up: whatever tokens spell the words of a tree, they are derived in the
grammar for a tree that differs from it in lines only.
-/

namespace PocketPascal

open Lexeme

/-! ## Writable trees -/

/-- Whether the value is written as a whole number without a sign. -/
def Value.isWritable : Value → Bool
  | .integer n => decide (0 ≤ n.toInt)
  | .real _ => false

/-- Whether the words of an expression can be read. -/
def Expr.isWritable : Expr → Bool
  | .literal value _ => value.isWritable
  | .variable name => isIdentifier name.text
  | .unary _ operand _ => operand.isWritable
  | .binary _ left right _ => left.isWritable && right.isWritable

mutual

/-- Whether the words of a statement can be read. -/
def Statement.isWritable : Statement → Bool
  | .compound body => !body.isEmpty && Statement.areWritable body
  | .assign target value _ => isIdentifier target.text && value.isWritable
  | .empty => true

/-- Whether the words of each statement can be read. -/
def Statement.areWritable : List Statement → Bool
  | [] => true
  | first :: more => first.isWritable && Statement.areWritable more

end

/-- Whether the words of a binding can be read. -/
def Binding.isWritable (b : Binding) : Bool :=
  isIdentifier b.name.text && (b.type.text == Keyword.integer.text || b.type.text == Keyword.real.text)

/-- Whether no variable is declared after a procedure. -/
def Declaration.variablesFirst (ds : List Declaration) : Bool :=
  (ds.dropWhile Declaration.isVariable).all fun d => !d.isVariable

mutual

/-- Whether the words of a declaration can be read. -/
def Declaration.isWritable : Declaration → Bool
  | .variable b => b.isWritable
  | .procedure name _ parameters declarations body =>
      isIdentifier name && parameters.all Binding.isWritable &&
        Declaration.variablesFirst declarations && Declaration.areWritable declarations &&
        (Statement.compound body).isWritable

/-- Whether the words of each declaration can be read. -/
def Declaration.areWritable : List Declaration → Bool
  | [] => true
  | first :: more => first.isWritable && Declaration.areWritable more

end

/-- Whether the words of a program can be read. -/
def Program.isWritable (p : Program) : Bool :=
  isIdentifier p.name && Declaration.variablesFirst p.block.declarations &&
    Declaration.areWritable p.block.declarations && (Statement.compound p.block.body).isWritable

namespace Grammar

variable {α β : Type}

/-! ## Words and the tokens that spell them -/

/-- All the words stand, and tokens that spell them have the property; their numbers can be held. -/
structure Conveys (words : List String) (P : List Token → Prop) : Prop where
  /-- The words stand. -/
  stand : ∀ w ∈ words, ∃ kind, Stands w kind
  /-- What the tokens are. -/
  derive : ∀ ts, List.Forall₂ Token.Spells ts words → Held ts ∧ P ts

/-- The tokens are written for a tree that agrees with the given one under `f`. -/
def Restores (X : Piece α) (f : α → β) (a : α) (ts : List Token) : Prop :=
  ∃ a', X ts a' ∧ f a' = f a

namespace Conveys

variable {us vs : List String} {P Q : List Token → Prop}

theorem imp (h : Conveys us P) (hi : ∀ ts, P ts → Q ts) : Conveys us Q :=
  ⟨h.stand, fun ts hts => ⟨(h.derive ts hts).1, hi ts (h.derive ts hts).2⟩⟩

theorem nil : Conveys [] (· = []) := by
  refine ⟨by simp, fun ts hts => ?_⟩
  cases hts
  exact ⟨held_nil, rfl⟩

/-- A single word. -/
theorem token {word : String} {kind : Kind} (hs : Stands word kind)
    (hn : kind = .integer ∨ kind = .real → ∀ t : Token, t.kind = kind → t.text = word →
      t.value?.isSome) :
    Conveys [word] fun ts => ∃ t, ts = [t] ∧ t.kind = kind ∧ t.text = word := by
  refine ⟨fun w hw => ⟨kind, by rwa [List.mem_singleton.1 hw]⟩, fun ts hts => ?_⟩
  cases hts with
  | @cons t _ _ _ spells hnil =>
    cases hnil
    have hkind : t.kind = kind := hs.kind_unique spells.stands
    have htext : t.text = word := by rw [Token.text, spells.lexeme, Option.getD_some]
    refine ⟨fun t' ht' hnum => ?_, t, rfl, hkind, htext⟩
    rw [List.mem_singleton.1 ht'] at hnum ⊢
    rw [hkind] at hnum
    exact hn hnum t hkind htext

theorem mark (sign : Mark) :
    Conveys [sign.text] fun ts => ∃ t, ts = [t] ∧ t.kind = .mark sign ∧ t.text = sign.text :=
  token (stands_mark sign) (by simp)

theorem keyword (word : Keyword) :
    Conveys [word.text] fun ts => ∃ t, ts = [t] ∧ t.kind = .keyword word ∧ t.text = word.text :=
  token (stands_keyword word) (by simp)

theorem name {word : String} (h : isIdentifier word) :
    Conveys [word] fun ts => ∃ t, ts = [t] ∧ t.kind = .name ∧ t.text = word :=
  token (stands_identifier h) (by simp)

theorem append (hu : Conveys us P) (hv : Conveys vs Q) :
    Conveys (us ++ vs) fun ts => ∃ ls rs, ts = ls ++ rs ∧ P ls ∧ Q rs := by
  refine ⟨fun w hw => ?_, fun ts hts => ?_⟩
  · rcases List.mem_append.1 hw with hw | hw
    · exact hu.stand w hw
    · exact hv.stand w hw
  · have hl := hu.derive _ (List.forall₂_take_append ts us vs hts)
    have hr := hv.derive _ (List.forall₂_drop_append ts us vs hts)
    have hsplit : ts = ts.take us.length ++ ts.drop us.length := (List.take_append_drop _ ts).symm
    refine ⟨?_, _, _, hsplit, hl.2, hr.2⟩
    rw [hsplit]
    exact hl.1.append hr.1

theorem cons {word : String} (hu : Conveys [word] P) (hv : Conveys vs Q) :
    Conveys (word :: vs) fun ts => ∃ ls rs, ts = ls ++ rs ∧ P ls ∧ Q rs :=
  hu.append hv

end Conveys

/-! ## Expressions -/

/-- The tokens are written for an operand of an operator that asks for the given tightness. -/
def IsOperand : Nat → Piece Expr
  | 0 => IsExpr Numbered
  | 1 => IsTerm Numbered
  | _ => IsFactor Numbered

theorem IsFactor.operand {ts : List Token} {e : Expr} (h : IsFactor Numbered ts e) :
    ∀ n, IsOperand n ts e
  | 0 => .term (.factor h)
  | 1 => .factor h
  | _ + 2 => h

/-- An operand can stand where a less tight one is asked for. -/
theorem IsOperand.mono {ts : List Token} {e : Expr} :
    ∀ {n m : Nat}, n ≤ m → IsOperand m ts e → IsOperand n ts e
  | n, _ + 2, _, h => IsFactor.operand h n
  | 0, 1, _, h => .term h
  | 1, 1, _, h => h
  | 0, 0, _, h => h

/-- Two operands, each as tight as its side asks for, are written for an operation. -/
theorem IsOperand.binary {ls rs : List Token} {t : Token} {op : BinaryOperator}
    {left right : Expr} (hl : IsOperand op.tightness ls left) (ht : t.kind = op.kind)
    (hr : IsOperand (op.tightness + 1) rs right) :
    IsOperand op.tightness (ls ++ t :: rs) (.binary op left right t.line) := by
  cases op with
  | add => exact IsExpr.sum hl (ht ▸ .plus) hr
  | sub => exact IsExpr.sum hl (ht ▸ .minus) hr
  | mul => exact IsTerm.product hl (ht ▸ .times) hr
  | div => exact IsTerm.product hl (ht ▸ .div) hr
  | slash => exact IsTerm.product hl (ht ▸ .slash) hr

theorem stands_binary (op : BinaryOperator) : Stands op.symbol op.kind := by
  cases op with
  | add => exact stands_mark .plus
  | sub => exact stands_mark .minus
  | mul => exact stands_mark .times
  | div => exact stands_keyword .div
  | slash => exact stands_mark .slash

theorem stands_unary (op : UnaryOperator) : Stands op.symbol op.kind := by
  cases op with
  | plus => exact stands_mark .plus
  | minus => exact stands_mark .minus

/-- With parentheses where they are needed, an expression stands as any operand. -/
theorem conveys_enclose {e : Expr} {needed : Nat}
    (h : Conveys e.words (Restores (IsOperand e.tightness) Expr.unplaced e)) :
    Conveys (Expr.enclose e.tightness needed e.words)
      (Restores (IsOperand needed) Expr.unplaced e) := by
  unfold Expr.enclose
  split
  · -- parentheses make a factor of any expression
    refine (Conveys.cons (.mark .leftParen) (h.append (.mark .rightParen))).imp ?_
    rintro _ ⟨_, _, rfl, ⟨opening, rfl, ho, -⟩, ts, _, rfl, ⟨e', he, hu⟩, closing, rfl, hc, -⟩
    exact ⟨e', (IsFactor.parens ho (IsOperand.mono (Nat.zero_le _) he) hc).operand needed, hu⟩
  · -- the expression is tight enough as it stands
    rename_i hle
    refine h.imp fun ts ⟨e', he, hu⟩ => ⟨e', IsOperand.mono (by omega) he, hu⟩

theorem natOfDigits_repr (n : Nat) : Decimal.natOfDigits n.repr.toList = n := by
  rw [Nat.toList_repr]
  have h := Nat.ofDigitChars_ten_toDigits (n := n)
  rwa [Nat.ofDigitChars_eq_foldl] at h

theorem conveys_literal {value : Value} (line : Nat) (h : value.isWritable) :
    Conveys [value.text] (Restores (IsFactor Numbered) Expr.unplaced (.literal value line)) := by
  cases value with
  | real x => cases h
  | integer n =>
    have hn : 0 ≤ n.toInt := by simpa [Value.isWritable] using h
    have htext : (Value.integer n).text = n.toInt.toNat.repr := by
      rw [Value.text, Int.toString_eq_repr, Int.repr_eq_if, if_pos hn]
    -- every token that is spelled so has the number as its value, so it can be held
    have hwrites : ∀ t : Token, t.kind = .integer → t.text = n.toInt.toNat.repr →
        t.value? = some (.integer n) := by
      intro t hk ht
      refine Token.value?_eq_some_iff.2 (.integer hk ?_)
      rw [ht, natOfDigits_repr]
      omega
    rw [htext]
    refine (Conveys.token (stands_number _) fun _ t hk ht => by rw [hwrites t hk ht]; rfl).imp ?_
    rintro _ ⟨t, rfl, hk, ht⟩
    have hnumber : t.number = .integer n := Token.number_of_value? (hwrites t hk ht)
    exact ⟨_, .literal (.inl hk) hnumber, rfl⟩

/-- The words of an expression are read as an operand that is as tight as the expression. -/
theorem conveys_expr {e : Expr} (h : e.isWritable) :
    Conveys e.words (Restores (IsOperand e.tightness) Expr.unplaced e) := by
  induction e with
  | literal value line => exact conveys_literal line h
  | «variable» name =>
    refine (Conveys.name h).imp ?_
    rintro _ ⟨t, rfl, hk, ht⟩
    exact ⟨_, IsFactor.variable hk, by simp [Expr.unplaced, Name.unplaced, ht]⟩
  | unary op operand line ih =>
    have hop := Conveys.token (stands_unary op) (by cases op <;> simp [UnaryOperator.kind])
    refine (hop.cons (conveys_enclose (ih h))).imp ?_
    rintro _ ⟨_, ts, rfl, ⟨t, rfl, hk, -⟩, e', he, hu⟩
    have hsign : PrefixSign t.kind op := prefixSign_iff.2 (by rw [hk]; cases op <;> rfl)
    exact ⟨_, IsFactor.sign hsign he, by simp [Expr.unplaced, hu]⟩
  | binary op left right line ihl ihr =>
    rw [Expr.isWritable, Bool.and_eq_true] at h
    have hop := Conveys.token (stands_binary op) (by cases op <;> simp [BinaryOperator.kind])
    refine ((conveys_enclose (ihl h.1)).append (hop.cons (conveys_enclose (ihr h.2)))).imp ?_
    rintro _ ⟨ls, _, rfl, ⟨left', hl, hul⟩, _, rs, rfl, ⟨t, rfl, hk, -⟩, right', hr, hur⟩
    exact ⟨_, IsOperand.binary hl hk hr, by simp [Expr.unplaced, hul, hur]⟩

/-! ## Statements -/

/-- Words around those of statements are read as a compound statement. -/
theorem conveys_compound {body : List Statement} (h : Conveys (Statement.wordsOfList body)
      (Restores (IsStatements Numbered) Statement.unplacedList body)) :
    Conveys (Statement.compound body).words
      (Restores (IsCompound Numbered) Statement.unplacedList body) := by
  rw [Statement.words]
  refine (Conveys.cons (.keyword .begin) (h.append (.keyword .finish))).imp ?_
  rintro _ ⟨_, _, rfl, ⟨opening, rfl, ho, -⟩, ts, _, rfl, ⟨body', hb, hu⟩, closing, rfl, hc, -⟩
  exact ⟨body', .block ho hb hc, hu⟩

mutual

theorem conveys_statement (s : Statement) (h : s.isWritable) :
    Conveys s.words (Restores (IsStatement Numbered) Statement.unplaced s) := by
  cases s with
  | compound body =>
    rw [Statement.isWritable, Bool.and_eq_true, Bool.not_eq_true', List.isEmpty_eq_false_iff] at h
    refine (conveys_compound (conveys_statements body h.1 h.2)).imp ?_
    rintro ts ⟨body', hb, hu⟩
    exact ⟨_, .compound hb, by rw [Statement.unplaced, Statement.unplaced, hu]⟩
  | assign target value line =>
    rw [Statement.isWritable, Bool.and_eq_true] at h
    rw [Statement.words]
    refine (Conveys.cons (.name h.1) (.cons (.mark .assign) (conveys_expr h.2))).imp ?_
    rintro _ ⟨_, _, rfl, ⟨t, rfl, hk, ht⟩, _, ts, rfl, ⟨sign, rfl, hs, -⟩, e', he, hu⟩
    refine ⟨_, .assign hk hs (IsOperand.mono (Nat.zero_le _) he), ?_⟩
    simp [Statement.unplaced, Name.unplaced, ht, hu]
  | empty =>
    rw [Statement.words]
    refine Conveys.nil.imp ?_
    rintro _ rfl
    exact ⟨_, .empty, rfl⟩

/-- The words of statements, of which there is one, are read as the statements. -/
theorem conveys_statements (body : List Statement) (hne : body ≠ [])
    (h : Statement.areWritable body) : Conveys (Statement.wordsOfList body)
      (Restores (IsStatements Numbered) Statement.unplacedList body) := by
  match body with
  | [] => exact absurd rfl hne
  | [last] =>
    rw [Statement.areWritable, Bool.and_eq_true] at h
    rw [Statement.wordsOfList]
    refine (conveys_statement last h.1).imp ?_
    rintro ts ⟨last', hl, hu⟩
    exact ⟨_, .last hl, by simp [Statement.unplacedList, hu]⟩
  | first :: second :: more =>
    rw [Statement.areWritable, Bool.and_eq_true] at h
    rw [Statement.wordsOfList]
    refine ((conveys_statement first h.1).append (.cons (.mark .semicolon)
      (conveys_statements (second :: more) (by simp) h.2))).imp ?_
    rintro _ ⟨ts, _, rfl, ⟨first', hf, huf⟩, _, rest, rfl, ⟨t, rfl, hk, -⟩, rest', hr, hur⟩
    exact ⟨_, .more hf hk hr, by simp only [Statement.unplacedList, huf] at hur ⊢; rw [hur]⟩

end

end Grammar

end PocketPascal
