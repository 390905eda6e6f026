import PocketPascal.Proofs.Syntax.Prediction
import PocketPascal.Syntax.Grammar

/-!
# Expressions are read as the grammar says

The readers of expressions, terms and factors meet the rules of the grammar. A chain of operators is
left-recursive in the grammar and a loop in the readers, so the rules are first brought into the form
of a first operand and a `Chain` of the others.

The numbers of the grammar are those of `Token.number` here, which gives some value to a number that
cannot be held, too: what stands behind such a number does not depend on it.
-/

namespace PocketPascal

/-- The value of a number; a number that cannot be held counts as zero. -/
def Token.number (t : Token) : Value := t.value?.getD (.integer 0)

theorem Token.number_of_value? {t : Token} {value : Value} (h : t.value? = some value) :
    t.number = value := by
  rw [number, h]
  rfl

namespace Grammar

/-- Every number has the value that its token stands for. -/
def Numbered (t : Token) (value : Value) : Prop := t.number = value

/-- The kinds of the operators of a product. -/
def productKinds : List Kind := [.mark .times, .keyword .div, .mark .slash]

/-- The kinds of all operators. -/
def operatorKinds : List Kind := [.mark .plus, .mark .minus] ++ productKinds

/-! ## Chains -/

/-- The tokens go on with a chain of operators, of which `left` has been written. -/
inductive Chain (op? : Kind → Option BinaryOperator) (X : Piece Expr) : Expr → Piece Expr where
  /-- The chain is complete. -/
  | none (left : Expr) : Chain op? X left [] left
  /-- An operator and an operand, and the chain after them. -/
  | more {left right e : Expr} {t : Token} {op : BinaryOperator} {rs ts : List Token}
      (ht : op? t.kind = some op) (hr : X rs right)
      (h : Chain op? X (.binary op left right t.line) ts e) : Chain op? X left (t :: (rs ++ ts)) e

section Chains

variable {op? : Kind → Option BinaryOperator} {X : Piece Expr} {left right e : Expr} {t : Token}
  {op : BinaryOperator} {ts rs : List Token} {kinds kinds' : List Kind}

theorem Chain.snoc (h : Chain op? X left ts e) (ht : op? t.kind = some op) (hr : X rs right) :
    Chain op? X left (ts ++ t :: rs) (.binary op e right t.line) := by
  induction h with
  | none left => simpa using Chain.more ht hr (.none _)
  | @more left right' e t' op' rs' ts ht' hr' _ ih =>
    have := Chain.more ht' hr' ih
    simpa using this

/-- A chain is complete or begins with one of its operators. -/
theorem Chain.nil_or_cons (h : Chain op? X left ts e) :
    ts = [] ∨ ∃ t more op, ts = t :: more ∧ op? t.kind = some op := by
  cases h with
  | none => exact .inl rfl
  | more ht hr h => exact .inr ⟨_, _, _, rfl, ht⟩

/-- No operand could have gone on with the chain behind it. -/
theorem Chain.clear (hk : kinds' ⊆ kinds) (ho : ∀ kind op, op? kind = some op → kind ∉ kinds')
    (h : Chain op? X left ts e) (hc : Clear kinds rs) : Clear kinds' (ts ++ rs) := by
  rcases h.nil_or_cons with rfl | ⟨t, more, op, rfl, ht⟩
  · exact hc.mono hk
  · simpa using ho t.kind op ht

/-- The rule for reading one more operand of a chain. -/
theorem meets_chain {c : Cursor} {first : (c : Cursor) → Reading c.remaining Expr}
    {rest : Expr → (c : Cursor) → Reading (c.remaining + 1) Expr} (hop : op? c.current.kind = some op)
    (hkind : ∀ kind op, op? kind = some op → op.kind = kind)
    (hmem : ∀ kind op, op? kind = some op → kind ∉ kinds') (hsub : kinds' ⊆ kinds)
    (hmem' : ∀ kind op, op? kind = some op → kind ∈ kinds) (hX : Opens X [])
    (hf : ∀ c₁ : Cursor, c₁.remaining < c.remaining → (first c₁).Meets c₁ X kinds')
    (hr : ∀ (t : Token) (c₁ : Cursor), c₁.remaining < c.remaining → ∀ (right : Expr) (c₂ : Cursor),
      c₂.remaining < c₁.remaining →
        (rest (.binary op left right t.line) c₂).Meets c₂
          (Chain op? X (.binary op left right t.line)) kinds) :
    ((c.eat op.kind op.kind_ne_finish).bind fun t c₁ h₁ => (first c₁).bind fun right c₂ h₂ =>
      (rest (.binary op left right t.line) c₂).weaken
        (Nat.succ_le_succ (Nat.le_of_lt (Nat.lt_trans h₂ h₁)))).Meets c (Chain op? X left) kinds := by
  have opens : ∀ e, Opens (Chain op? X e) [] := fun e => ⟨[], e, .none e⟩
  have eat : (c.eat op.kind op.kind_ne_finish).Meets c (Piece.token op.kind) [] :=
    Reading.meets_eat _ (by cases op <;> decide) (by cases op <;> decide)
  have operand : ∀ (t : Token) (c₁ : Cursor) (h₁ : c₁.remaining < c.remaining),
      ((first c₁).bind fun right c₂ h₂ => (rest (.binary op left right t.line) c₂).weaken
        (Nat.succ_le_succ (Nat.le_of_lt (Nat.lt_trans h₂ h₁)))).Meets c₁
          (Piece.seq X fun right => Chain op? X (.binary op left right t.line)) kinds := by
    intro t c₁ h₁
    refine (hf c₁ h₁).bind (fun right c₂ h₂ => (hr t c₁ h₁ right c₂ h₂).weaken _) (fun _ => opens _) ?_
    intro right rs e z h hz
    exact h.clear hsub hmem hz
  refine (eat.bind operand (fun t => hX.seq_left fun _ => opens _) ?_).of_alternative
    (fun z hz => hz) ?_ ?_
  · intros
    exact clear_none
  · rintro ts e ⟨ls, rs, t, rfl, ⟨rfl, ht⟩, ps, qs, right, rfl, hp, hq⟩
    have htop : op? t.kind = some op := by rw [ht, hkind _ _ hop, hop]
    show Chain op? X left (t :: (ps ++ qs)) e
    exact Chain.more htop hp hq
  · intro v e z more h hz he
    cases h with
    | none =>
      rw [List.nil_append] at he
      subst he
      exact absurd (hmem' _ _ hop) (by simpa using hz)
    | @more _ right _ t op' rs ts ht hr h =>
      simp only [List.cons_append, List.cons.injEq] at he
      obtain ⟨rfl, -⟩ := he
      rw [hop] at ht
      cases ht
      exact ⟨[c.current], rs ++ ts, c.current, rfl, ⟨rfl, (hkind _ _ hop).symm⟩, rs, ts, right, rfl,
        hr, h⟩

/-- The rule for ending a chain, where no operator follows. -/
theorem meets_chain_none {c : Cursor} (hop : op? c.current.kind = none) :
    (Reading.done left c (Nat.lt_succ_self c.remaining)).Meets c (Chain op? X left) kinds := by
  refine Reading.meets_done (.none left) ?_ ?_
  · intro v e t more z h hz he
    obtain ⟨rfl, -⟩ := List.cons.inj he
    rcases h.nil_or_cons with h | ⟨t, more, op, h, ht⟩
    · cases h
    · cases h
      rw [hop] at ht
      cases ht
  · intro e h
    cases h
    rfl

end Chains

/-! ## The rules of the grammar as chains -/

section Rules

variable {valued : Token → Value → Prop} {ts : List Token} {e : Expr}

theorem IsExpr.seq : ∀ {ts : List Token} {e : Expr}, IsExpr valued ts e →
    Piece.seq (IsTerm valued) (Chain BinaryOperator.ofSumKind? (IsTerm valued)) ts e
  | _, _, .term h => ⟨_, [], _, by simp, h, .none _⟩
  | _, _, .sum hl ht hr => by
    obtain ⟨ls, ms, left, rfl, hf, hc⟩ := hl.seq
    exact ⟨ls, _, left, by rw [List.append_assoc], hf, hc.snoc (sumSign_iff.1 ht) hr⟩

theorem IsTerm.seq : ∀ {ts : List Token} {e : Expr}, IsTerm valued ts e →
    Piece.seq (IsFactor valued) (Chain BinaryOperator.ofProductKind? (IsFactor valued)) ts e
  | _, _, .factor h => ⟨_, [], _, by simp, h, .none _⟩
  | _, _, .product hl ht hr => by
    obtain ⟨ls, ms, left, rfl, hf, hc⟩ := hl.seq
    exact ⟨ls, _, left, by rw [List.append_assoc], hf, hc.snoc (productSign_iff.1 ht) hr⟩

theorem isExpr_of_chain {left : Expr} {ls : List Token} (hl : IsExpr valued ls left)
    (h : Chain BinaryOperator.ofSumKind? (IsTerm valued) left ts e) :
    IsExpr valued (ls ++ ts) e := by
  induction h generalizing ls with
  | none => simpa using hl
  | more ht hr _ ih => simpa using ih (.sum hl (sumSign_iff.2 ht) hr)

theorem isTerm_of_chain {left : Expr} {ls : List Token} (hl : IsTerm valued ls left)
    (h : Chain BinaryOperator.ofProductKind? (IsFactor valued) left ts e) :
    IsTerm valued (ls ++ ts) e := by
  induction h generalizing ls with
  | none => simpa using hl
  | more ht hr _ ih => simpa using ih (.product hl (productSign_iff.2 ht) hr)

theorem isExpr_eq_seq : IsExpr valued =
    Piece.seq (IsTerm valued) (Chain BinaryOperator.ofSumKind? (IsTerm valued)) := by
  funext ts e
  refine propext ⟨IsExpr.seq, ?_⟩
  rintro ⟨ls, rs, left, rfl, hl, h⟩
  exact isExpr_of_chain (.term hl) h

theorem isTerm_eq_seq : IsTerm valued =
    Piece.seq (IsFactor valued) (Chain BinaryOperator.ofProductKind? (IsFactor valued)) := by
  funext ts e
  refine propext ⟨IsTerm.seq, ?_⟩
  rintro ⟨ls, rs, left, rfl, hl, h⟩
  exact isTerm_of_chain (.factor hl) h

theorem opens_factor : Opens (IsFactor valued) [] :=
  ⟨[⟨.name, none, 0⟩], _, .variable rfl⟩

theorem opens_term : Opens (IsTerm valued) [] := by
  obtain ⟨ts, e, h⟩ : Opens (IsFactor valued) [] := opens_factor
  exact ⟨ts, e, .factor h⟩

theorem opens_expr : Opens (IsExpr valued) [] := by
  obtain ⟨ts, e, h⟩ : Opens (IsTerm valued) [] := opens_term
  exact ⟨ts, e, .term h⟩

end Rules

/-! ## The readers -/

theorem meets_readLiteral {c : Cursor} {kind : Kind} (hk : kind ≠ .finish)
    (hn : kind = .integer ∨ kind = .real) : (Expr.readLiteral c kind hk).Meets c
      (Piece.map (fun t => .literal t.number t.line) (Piece.token kind)) [] := by
  unfold Expr.readLiteral
  by_cases hc : c.current.kind = kind
  · have number : c.current.kind = .integer ∨ c.current.kind = .real := by rwa [hc]
    cases hp : c.ahead.pull with
    | mk answer ahead =>
      cases answer with
      | ok next =>
        rw [Cursor.eat_of_pull_ok hk hc hp]
        have eats : c.Eats [c.current] (c.advance next ahead) := .more (hc ▸ hk) hp (.none _)
        simp only [Reading.bind]
        split
        · rename_i value hv
          rw [← Token.number_of_value? hv]
          refine .done eats ?_ ⟨c.current, ⟨rfl, hc⟩, rfl⟩ ?_
          · intro t ht _
            rw [List.mem_singleton.1 ht, hv]
            rfl
          · rintro more v z e ⟨t, ⟨rfl, -⟩, rfl⟩ - he
            simp only [List.cons_append, List.cons.injEq] at he
            obtain ⟨rfl, -⟩ := he
            exact ⟨rfl, rfl⟩
        · rename_i hv
          have alone : c.Eats ([] ++ [c.current]) (c.advance next ahead) := eats
          refine .literal alone held_nil number hv ⟨[], _, c.current, ⟨by simp, hc⟩, rfl⟩ ?_
          rintro more v z e ⟨t, ⟨rfl, -⟩, rfl⟩ - -
          simp
      | error e =>
        rw [Cursor.eat_of_pull_error hk hc hp]
        refine .lexical (.none c) held_nil hp ⟨[], _, c.current, ⟨by simp, hc⟩, rfl⟩ ?_
        rintro more v z e' ⟨t, ⟨rfl, -⟩, rfl⟩ - -
        simp
  · rw [Cursor.eat_of_ne hk hc]
    refine .unexpected (.none c) held_nil (fun t ht => ⟨[], _, t, ⟨by simp, ht⟩, rfl⟩) ?_
    rintro more v z e ⟨t, ⟨rfl, ht⟩, rfl⟩ - he
    simp only [List.nil_append, List.singleton_append, List.cons.injEq] at he
    rw [he.1] at ht
    exact hc ht

theorem meets_readName {c : Cursor} : (Name.read c).Meets c
    (Piece.map (fun t => ⟨t.text, t.line⟩) (Piece.token .name)) [] :=
  (Reading.meets_eat _ (by decide) (by decide)).map _

/-- What a factor is that begins with a given token. -/
theorem IsFactor.starts {valued : Token → Value → Prop} {v z more : List Token} {e : Expr} {t : Token}
    (h : IsFactor valued v e) (he : v ++ z = t :: more) :
    (∃ value, (t.kind = .integer ∨ t.kind = .real) ∧ valued t value ∧ v = [t] ∧
      e = .literal value t.line) ∨
    (t.kind = .name ∧ v = [t] ∧ e = .variable ⟨t.text, t.line⟩) ∨
    (∃ op ts operand, UnaryOperator.ofKind? t.kind = some op ∧ IsFactor valued ts operand ∧
      v = t :: ts ∧ e = .unary op operand t.line) ∨
    (∃ ts closing, t.kind = .mark .leftParen ∧ IsExpr valued ts e ∧
      closing.kind = .mark .rightParen ∧ v = t :: ts ++ [closing]) := by
  rcases h with ⟨ht, hv⟩ | ht | ⟨ht, h⟩ | ⟨ho, h, hc⟩
  · obtain ⟨rfl, -⟩ := List.cons.inj he
    exact .inl ⟨_, ht, hv, rfl, rfl⟩
  · obtain ⟨rfl, -⟩ := List.cons.inj he
    exact .inr (.inl ⟨ht, rfl, rfl⟩)
  · obtain ⟨rfl, -⟩ := List.cons.inj he
    exact .inr (.inr (.inl ⟨_, _, _, prefixSign_iff.1 ht, h, rfl, rfl⟩))
  · obtain ⟨rfl, -⟩ := List.cons.inj he
    exact .inr (.inr (.inr ⟨_, _, ho, h, hc, rfl⟩))

section Factor

variable {c : Cursor}

theorem meets_sign {op : UnaryOperator} (hop : UnaryOperator.ofKind? c.current.kind = some op)
    (ih : ∀ c₁ : Cursor, c₁.remaining < c.remaining →
      (Expr.readFactor c₁).Meets c₁ (IsFactor Numbered) []) :
    (Expr.readFactor c).Meets c (IsFactor Numbered) [] := by
  have hk : op.kind = c.current.kind := UnaryOperator.kind_of_ofKind? hop
  have eat : (c.eat op.kind op.kind_ne_finish).Meets c (Piece.token op.kind) [] :=
    Reading.meets_eat _ (by cases op <;> decide) (by cases op <;> decide)
  have operand := eat.bind
    (fun t c₁ h₁ => ((ih c₁ h₁).map fun e => Expr.unary op e t.line).weaken (Nat.le_of_lt h₁))
    (fun t => opens_factor.map _) (fun _ _ _ _ _ _ => clear_none)
  rw [Expr.readFactor, hop]
  refine operand.of_alternative (fun z hz => hz) ?_ ?_
  · rintro ts e ⟨ls, rs, t, rfl, ⟨rfl, ht⟩, operand, h, rfl⟩
    have htop : UnaryOperator.ofKind? t.kind = some op := by rw [ht, hk, hop]
    exact IsFactor.sign (prefixSign_iff.2 htop) h
  · intro v e z more h _ he
    rcases h.starts he with ⟨_, ht, -⟩ | ⟨ht, -⟩ | ⟨op', ts, operand, ht, ho, rfl, rfl⟩ | ⟨_, _, ht, -⟩
    · rcases ht with ht | ht <;> simp [ht, UnaryOperator.ofKind?] at hop
    · simp [ht, UnaryOperator.ofKind?] at hop
    · rw [hop] at ht
      cases ht
      exact ⟨[c.current], ts, c.current, rfl, ⟨rfl, hk.symm⟩, operand, ho, rfl⟩
    · simp [ht, UnaryOperator.ofKind?] at hop

theorem meets_literal {kind : Kind} {hk : kind ≠ .finish} (hc : c.current.kind = kind)
    (hn : kind = .integer ∨ kind = .real) :
    (Expr.readLiteral c kind hk).Meets c (IsFactor Numbered) [] := by
  refine (meets_readLiteral hk hn).of_alternative (fun z hz => hz) ?_ ?_
  · rintro ts e ⟨t, ⟨rfl, ht⟩, rfl⟩
    exact .literal (ht ▸ hn) rfl
  · intro v e z more h _ he
    rcases h.starts he with ⟨_, _, hv, rfl, rfl⟩ | ⟨ht, -⟩ | ⟨op, _, _, ht, -⟩ | ⟨_, _, ht, -⟩
    · rw [← show c.current.number = _ from hv]
      exact ⟨c.current, ⟨rfl, hc⟩, rfl⟩
    · rcases hn with hn | hn <;> simp [ht, hn] at hc
    · rcases hn with hn | hn <;> simp [hc, hn, UnaryOperator.ofKind?] at ht
    · rcases hn with hn | hn <;> simp [ht, hn] at hc

theorem meets_parens (hc : c.current.kind = .mark .leftParen)
    (ih : ∀ c₁ : Cursor, c₁.remaining < c.remaining →
      (Expr.read c₁).Meets c₁ (IsExpr Numbered) operatorKinds) :
    (Expr.readFactor c).Meets c (IsFactor Numbered) [] := by
  have close : ∀ e : Expr, Opens (Piece.map (fun _ => e) (Piece.token (.mark .rightParen))) [] :=
    fun e => (opens_token _).map _
  have inner : ∀ (c₁ : Cursor) (h₁ : c₁.remaining < c.remaining),
      ((Expr.read c₁).bind fun inner c₂ h₂ =>
        ((c₂.eat (.mark .rightParen)).map fun _ => inner).weaken
          (show c₂.remaining ≤ c.remaining by omega)).Meets c₁
          (Piece.seq (IsExpr Numbered) fun e =>
            Piece.map (fun _ => e) (Piece.token (.mark .rightParen))) [] := by
    intro c₁ h₁
    refine (ih c₁ h₁).bind (fun e c₂ h₂ =>
      ((Reading.meets_eat _ (by decide) (by decide)).map _).weaken _) close ?_
    rintro e rs e' z ⟨t, ⟨rfl, ht⟩, rfl⟩ -
    simp [ht, operatorKinds, productKinds]
  have opening : (c.eat (.mark .leftParen) (by decide)).Meets c
      (Piece.token (.mark .leftParen)) [] := Reading.meets_eat _ (by decide) (by decide)
  have whole := opening.bind (fun _ c₁ h₁ => inner c₁ h₁) (fun _ => opens_expr.seq_left close)
    (fun _ _ _ _ _ _ => clear_none)
  rw [Expr.readFactor, hc]
  refine whole.of_alternative (fun z hz => hz) ?_ ?_
  · rintro ts e ⟨ls, rs, opening, rfl, ⟨rfl, ho⟩, es, cs, e', rfl, he, closing, ⟨rfl, hcl⟩, rfl⟩
    exact .parens ho he hcl
  · intro v e z more h _ he
    rcases h.starts he with ⟨_, ht, -⟩ | ⟨ht, -⟩ | ⟨_, _, _, ht, -⟩ | ⟨ts, closing, _, hin, hcl, rfl⟩
    · simp [hc] at ht
    · simp [hc] at ht
    · simp [hc, UnaryOperator.ofKind?] at ht
    · exact ⟨[c.current], ts ++ [closing], c.current, rfl, ⟨rfl, hc⟩, ts, [closing], e, rfl, hin,
        closing, ⟨rfl, hcl⟩, rfl⟩

/-- Where no other factor begins, a name is read. -/
theorem meets_variable (hop : UnaryOperator.ofKind? c.current.kind = none)
    (hi : c.current.kind ≠ .integer) (hr : c.current.kind ≠ .real)
    (hp : c.current.kind ≠ .mark .leftParen) :
    ((Name.read c).map Expr.variable).Meets c (IsFactor Numbered) [] := by
  refine (meets_readName.map Expr.variable).of_alternative (fun z hz => hz) ?_ ?_
  · rintro ts e ⟨_, ⟨t, ⟨rfl, ht⟩, rfl⟩, rfl⟩
    exact .variable ht
  · intro v e z more h _ he
    rcases h.starts he with ⟨_, ht, -⟩ | ⟨ht, rfl, rfl⟩ | ⟨op, _, _, ht, -⟩ | ⟨_, _, ht, -⟩
    · exact (ht.elim hi hr).elim
    · exact ⟨_, ⟨c.current, ⟨rfl, ht⟩, rfl⟩, rfl⟩
    · rw [hop] at ht
      cases ht
    · exact absurd ht hp

end Factor

/-- The readers of expressions, of terms, of factors, and of the rests of chains meet the grammar. -/
theorem meets_expressions :
    (∀ c, (Expr.read c).Meets c (IsExpr Numbered) operatorKinds) ∧
    (∀ left c, (Expr.readSum left c).Meets c
      (Chain BinaryOperator.ofSumKind? (IsTerm Numbered) left) operatorKinds) ∧
    (∀ c, (Expr.readTerm c).Meets c (IsTerm Numbered) productKinds) ∧
    (∀ left c, (Expr.readProduct left c).Meets c
      (Chain BinaryOperator.ofProductKind? (IsFactor Numbered) left) productKinds) ∧
    (∀ c, (Expr.readFactor c).Meets c (IsFactor Numbered) []) := by
  have sumKind : ∀ kind op, BinaryOperator.ofSumKind? kind = some op →
      kind ∉ productKinds ∧ kind ∈ operatorKinds := by
    intro kind op h
    unfold BinaryOperator.ofSumKind? at h
    split at h <;> cases h <;> decide
  have productKind : ∀ kind op, BinaryOperator.ofProductKind? kind = some op →
      kind ∈ productKinds := by
    intro kind op h
    unfold BinaryOperator.ofProductKind? at h
    split at h <;> cases h <;> decide
  have subset : productKinds ⊆ operatorKinds := List.subset_append_right _ _
  refine Expr.read.mutual_induct _ _ _ _ _ ?_ ?_ ?_ ?_ ?_ ?_ ?_ ?_ ?_ ?_ ?_
  · -- an expression
    intro c hterm hsum
    rw [Expr.read, isExpr_eq_seq]
    refine hterm.bind (fun left c₁ h₁ => (hsum left c₁ h₁).weaken _) (fun left => ⟨[], _, .none left⟩) ?_
    intro left rs e z h hz
    exact h.clear subset (fun kind op ho => (sumKind kind op ho).1) hz
  · -- a chain of sums, at its end
    intro left c hop
    rw [Expr.readSum, hop]
    exact meets_chain_none hop
  · -- a chain of sums that goes on
    intro left c op hop hterm hsum
    rw [Expr.readSum, hop]
    exact meets_chain hop (fun _ _ => BinaryOperator.kind_of_ofSumKind?)
      (fun kind op ho => (sumKind kind op ho).1) subset (fun kind op ho => (sumKind kind op ho).2)
      opens_term hterm hsum
  · -- a term
    intro c hfactor hproduct
    rw [Expr.readTerm, isTerm_eq_seq]
    exact hfactor.bind (fun left c₁ h₁ => (hproduct left c₁ h₁).weaken _)
      (fun left => ⟨[], _, .none left⟩) (fun _ _ _ _ _ _ => clear_none)
  · -- a chain of products, at its end
    intro left c hop
    rw [Expr.readProduct, hop]
    exact meets_chain_none hop
  · -- a chain of products that goes on
    intro left c op hop hfactor hproduct
    rw [Expr.readProduct, hop]
    exact meets_chain hop (fun _ _ => BinaryOperator.kind_of_ofProductKind?) (by simp) (by simp)
      productKind opens_factor hfactor hproduct
  · -- a sign
    intro c op hop ih
    exact meets_sign hop ih
  · -- a whole number
    intro c hop hk
    rw [Expr.readFactor, hop]
    simp only [hk]
    exact meets_literal hk (.inl rfl)
  · -- a floating-point number
    intro c hop hk
    rw [Expr.readFactor, hop]
    simp only [hk]
    exact meets_literal hk (.inr rfl)
  · -- parentheses
    intro c _ hk ih
    exact meets_parens hk ih
  · -- a name
    intro c hop hi hr hp
    rw [Expr.readFactor, hop]
    simp only
    exact meets_variable hop hi hr hp

theorem meets_readExpr (c : Cursor) : (Expr.read c).Meets c (IsExpr Numbered) operatorKinds :=
  meets_expressions.1 c

end Grammar

end PocketPascal
