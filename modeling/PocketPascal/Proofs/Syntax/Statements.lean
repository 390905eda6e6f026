import PocketPascal.Proofs.Syntax.Expressions

/-!
# Statements are read as the grammar says

The readers of statements meet the rules of the grammar. The empty statement has no tokens, so a
place where it is read is one where neither a name nor an opening word follows; these two kinds, and
those of the operators, are the ones that could go on with a statement.
-/

namespace PocketPascal.Grammar

/-- The kinds that could go on with a statement. -/
def statementKinds : List Kind := [.name, .keyword .begin] ++ operatorKinds

/-- The kinds that could go on with a list of statements. -/
def statementsKinds : List Kind := .mark .semicolon :: statementKinds

theorem operatorKinds_subset : operatorKinds ⊆ statementKinds := List.subset_append_right _ _

theorem statementKinds_subset : statementKinds ⊆ statementsKinds := List.subset_cons_self _ _

section Rules

variable {valued : Token → Value → Prop} {ts : List Token} {body : List Statement}

theorem IsCompound.starts (h : IsCompound valued ts body) :
    ∃ t more, ts = t :: more ∧ t.kind = .keyword .begin := by
  cases h with
  | block ho h hc => exact ⟨_, _, rfl, ho⟩

theorem isStatements_eq_headed : IsStatements valued =
    Piece.headed (.mark .semicolon) (IsStatement valued) (fun first => [first])
      (fun first more => first :: more) (IsStatements valued) := by
  funext ts body
  refine propext ⟨?_, ?_⟩
  · intro h
    cases h with
    | last h => exact ⟨_, [], _, by simp, h, .inl ⟨rfl, rfl⟩⟩
    | more h hs hr =>
      exact ⟨_, _, _, rfl, h, .inr ⟨[_], _, _, rfl, ⟨rfl, hs⟩, _, hr, rfl⟩⟩
  · rintro ⟨ls, rs, first, rfl, h, ⟨rfl, rfl⟩ | ⟨_, ms, t, rfl, ⟨rfl, ht⟩, body, hr, rfl⟩⟩
    · simpa using IsStatements.last h
    · exact .more h ht hr

theorem opens_statements : Opens (IsStatements valued) [] :=
  ⟨[], _, .last .empty⟩

theorem opens_compound : Opens (IsCompound valued) [] := by
  have none : IsStatements valued [] [.empty] := .last .empty
  exact ⟨[⟨.keyword .begin, .none, 0⟩, ⟨.keyword .finish, .none, 0⟩], _, .block rfl none rfl⟩

end Rules

variable {c : Cursor}

/-- An assignment is read where a statement is asked for and a name stands. -/
theorem meets_assignment (hc : c.current.kind = .name) :
    (Statement.readAssignment c).Meets c (IsStatement Numbered) statementKinds := by
  have opens : ∀ (target : Name) (t : Token), Opens
      (Piece.map (fun value => Statement.assign target value t.line) (IsExpr Numbered)) [] :=
    fun _ _ => opens_expr.map _
  have sign : ∀ (target : Name) (c₁ : Cursor) (h₁ : c₁.remaining < c.remaining),
      ((c₁.eat (.mark .assign)).bind fun t c₂ h₂ =>
        ((Expr.read c₂).map fun value => Statement.assign target value t.line).weaken
          (show c₂.remaining ≤ c.remaining by omega)).Meets c₁
          (Piece.seq (Piece.token (.mark .assign)) fun t =>
            Piece.map (fun value => Statement.assign target value t.line) (IsExpr Numbered))
          operatorKinds := by
    intro target c₁ h₁
    exact (Reading.meets_eat _ (by decide) (by decide)).bind
      (fun t c₂ h₂ => ((meets_readExpr c₂).map _).weaken _) (opens target)
      (fun _ _ _ _ _ _ => clear_none)
  have whole := meets_readName.bind sign (fun target => (opens_token _).seq_left (opens target))
    (fun _ _ _ _ _ _ => clear_none)
  refine whole.of_alternative (fun z hz => hz.mono operatorKinds_subset) ?_ ?_
  · rintro ts s ⟨_, _, _, rfl, ⟨target, ⟨rfl, ht⟩, rfl⟩, _, _, sign, rfl, ⟨rfl, hs⟩, value, h, rfl⟩
    exact .assign ht hs h
  · intro v s z more h hz he
    cases h with
    | empty =>
      rw [List.nil_append] at he
      subst he
      simp [hc, statementKinds] at hz
    | assign ht hs h =>
      obtain ⟨rfl, -⟩ := List.cons.inj he
      exact ⟨[_], _, _, rfl, ⟨_, ⟨rfl, ht⟩, rfl⟩, [_], _, _, rfl, ⟨rfl, hs⟩, _, h, rfl⟩
    | compound h =>
      obtain ⟨t, more, rfl, ht⟩ := h.starts
      obtain ⟨rfl, -⟩ := List.cons.inj he
      rw [ht] at hc
      cases hc

theorem meets_compound (ih : ∀ c₁ : Cursor, c₁.remaining < c.remaining →
      (Statement.readList c₁).Meets c₁ (IsStatements Numbered) statementsKinds) :
    (Statement.readCompound c).Meets c (IsCompound Numbered) [] := by
  have close : ∀ body : List Statement,
      Opens (Piece.map (fun _ => body) (Piece.token (.keyword .finish))) [] :=
    fun body => (opens_token _).map _
  have inner : ∀ (c₁ : Cursor) (h₁ : c₁.remaining < c.remaining),
      ((Statement.readList c₁).bind fun body c₂ h₂ =>
        ((c₂.eat (.keyword .finish)).map fun _ => body).weaken
          (show c₂.remaining ≤ c.remaining by omega)).Meets c₁
          (Piece.seq (IsStatements Numbered) fun body =>
            Piece.map (fun _ => body) (Piece.token (.keyword .finish))) [] := by
    intro c₁ h₁
    refine (ih c₁ h₁).bind (fun body c₂ h₂ =>
      ((Reading.meets_eat _ (by decide) (by decide)).map _).weaken _) close ?_
    rintro body rs body' z ⟨t, ⟨rfl, ht⟩, rfl⟩ -
    simp [ht, statementsKinds, statementKinds, operatorKinds, productKinds]
  have opening : (c.eat (.keyword .begin) (by decide)).Meets c
      (Piece.token (.keyword .begin)) [] := Reading.meets_eat _ (by decide) (by decide)
  have whole := opening.bind (fun _ c₁ h₁ => inner c₁ h₁) (fun _ => opens_statements.seq_left close)
    (fun _ _ _ _ _ _ => clear_none)
  rw [Statement.readCompound]
  refine whole.of_alternative (fun z hz => hz) ?_ ?_
  · rintro ts e ⟨ls, rs, opening, rfl, ⟨rfl, ho⟩, ss, cs, body, rfl, h, closing, ⟨rfl, hcl⟩, rfl⟩
    exact .block ho h hcl
  · intro v body z more h _ _
    cases h with
    | block ho h hc =>
      exact ⟨[_], _, _, rfl, ⟨rfl, ho⟩, _, [_], _, rfl, h, _, ⟨rfl, hc⟩, rfl⟩

/-- The readers of compound statements, of lists of statements and of statements meet the grammar. -/
theorem meets_statements :
    (∀ c, (Statement.readCompound c).Meets c (IsCompound Numbered) []) ∧
    (∀ c, (Statement.readList c).Meets c (IsStatements Numbered) statementsKinds) ∧
    (∀ c, (Statement.read c).Meets c (IsStatement Numbered) statementKinds) := by
  refine Statement.readCompound.mutual_induct _ _ _ ?_ ?_ ?_ ?_ ?_
  · -- a compound statement
    intro c ih
    exact meets_compound ih
  · -- statements
    intro c hfirst hrest
    rw [Statement.readList, isStatements_eq_headed]
    refine Reading.meets_headed hfirst (fun first c₁ h₁ c₂ h₂ => ?_) opens_statements (by decide)
      (by decide) (by decide) (by decide) (by decide) statementKinds_subset
    exact ((hrest c₁ h₁ c₂ h₂).map _).weaken _
  · -- a compound statement as a statement
    intro c hc hcompound
    rw [Statement.read]
    simp only [hc]
    refine ((hcompound.map Statement.compound).weaken _).of_alternative (fun z _ => clear_none) ?_ ?_
    · rintro ts s ⟨body, h, rfl⟩
      exact .compound h
    · intro v s z more h hz he
      cases h with
      | empty =>
        rw [List.nil_append] at he
        subst he
        simp [hc, statementKinds] at hz
      | assign ht hs h =>
        obtain ⟨rfl, -⟩ := List.cons.inj he
        rw [ht] at hc
        cases hc
      | compound h => exact ⟨_, h, rfl⟩
  · -- an assignment
    intro c hc
    rw [Statement.read]
    simp only [hc]
    exact (meets_assignment hc).weaken _
  · -- the empty statement
    intro c hb hn
    rw [Statement.read]
    simp only
    refine Reading.meets_done .empty ?_ ?_
    · intro v s t more z h _ he
      obtain ⟨rfl, -⟩ := List.cons.inj he
      cases h with
      | assign ht hs h => exact hn ht
      | compound h =>
        obtain ⟨_, _, hv, ht⟩ := h.starts
        obtain ⟨rfl, -⟩ := List.cons.inj hv
        exact hb ht
    · intro s h
      cases h with
      | empty => rfl
      | compound h => cases h

end PocketPascal.Grammar
