import PocketPascal.Proofs.Lines.Relocation

/-!
# Readers and lines

A reader looks at the kinds and the texts of tokens only; the lines it passes on to the tree or to
the error. So from a cursor with its tokens on other lines it reads the same tree on other lines, or
ends with the same error on other lines, and comes to the same position. The rules below say so for
each way in which readers are put together, and the readers follow from them one by one.
-/

namespace PocketPascal

variable {f : Nat → Nat}

namespace Reading

/-- Both readings have ended in the same way, the second one on other lines; `g` is what other lines
make of the value. -/
inductive Relocates (f : Nat → Nat) {α : Type} (g : α → α) {n m : Nat} :
    Reading n α → Reading m α → Prop where
  | done (value : α) (c : Cursor) (lt : c.remaining < n) (lt' : (c.relocate f).remaining < m) :
      Relocates f g (.done value c lt) (.done (g value) (c.relocate f) lt')
  | failed (cause : SyntaxError) (c : Cursor) :
      Relocates f g (.failed cause c) (.failed (cause.relocate f) (c.relocate f))

namespace Relocates

variable {α β : Type} {g : α → α} {g' : β → β} {n n' m m' : Nat} {r : Reading n α}
  {r' : Reading n' α}

theorem of_eq {value : α} {c c' : Cursor} {lt : c.remaining < n} {lt' : c'.remaining < n'}
    (h : c' = c.relocate f) :
    Relocates f g (Reading.done value c lt) (Reading.done (g value) c' lt') := by
  subst h
  exact .done value c lt lt'

theorem bind {next : α → (c : Cursor) → c.remaining < n → Reading m β}
    {next' : α → (c : Cursor) → c.remaining < n' → Reading m' β} (h : r.Relocates f g r')
    (hnext : ∀ value c lt lt',
      (next value c lt).Relocates f g' (next' (g value) (c.relocate f) lt')) :
    (r.bind next).Relocates f g' (r'.bind next') := by
  cases h with
  | done value c lt lt' => exact hnext value c lt lt'
  | failed cause c => exact .failed cause c

theorem map {make make' : α → β} (h : r.Relocates f g r')
    (hmake : ∀ value, make' (g value) = g' (make value) := by intros; rfl) :
    (r.map make).Relocates f g' (r'.map make') := by
  cases h with
  | done value c lt lt' =>
    rw [Reading.map, Reading.map, hmake]
    exact .done _ c lt lt'
  | failed cause c => exact .failed cause c

theorem weaken (h : r.Relocates f g r') (hm : n ≤ m) (hm' : n' ≤ m') :
    (r.weaken hm).Relocates f g (r'.weaken hm') := by
  cases h with
  | done value c lt lt' => exact .done value c _ _
  | failed cause c => exact .failed cause c

theorem branch {r₁ r₂ : Reading n α} {r₁' r₂' : Reading n' α} (c : Cursor) (kind : Kind)
    (h₁ : r₁.Relocates f g r₁') (h₂ : r₂.Relocates f g r₂') :
    (if c.isAt kind then r₁ else r₂).Relocates f g
      (if (c.relocate f).isAt kind then r₁' else r₂') := by
  rw [Cursor.isAt_relocate]
  by_cases hc : c.isAt kind
  · rwa [if_pos hc, if_pos hc]
  · rwa [if_neg hc, if_neg hc]

end Relocates

theorem relocates_eat (c : Cursor) {kind : Kind} (hk : kind ≠ .finish) :
    (c.eat kind hk).Relocates f (Token.relocate f) ((c.relocate f).eat kind hk) := by
  have hpull := c.ahead.pull_relocate (f := f)
  by_cases hc : c.current.kind = kind
  · have hc' : (c.relocate f).current.kind = kind := hc
    cases hp : c.ahead.pull with
    | mk answer ahead =>
      rw [hp] at hpull
      cases answer with
      | ok next =>
        have hp' : (c.relocate f).ahead.pull = (.ok (next.relocate f), ahead.relocate f) := hpull
        rw [Cursor.eat_of_pull_ok hk hc hp, Cursor.eat_of_pull_ok hk hc' hp']
        exact .of_eq (c.advance_relocate next ahead)
      | error e =>
        have hp' : (c.relocate f).ahead.pull = (.error (e.relocate f), ahead.relocate f) := hpull
        rw [Cursor.eat_of_pull_error hk hc hp, Cursor.eat_of_pull_error hk hc' hp']
        exact .failed (.lexical e) { c with ahead }
  · have hc' : (c.relocate f).current.kind ≠ kind := hc
    rw [Cursor.eat_of_ne hk hc, Cursor.eat_of_ne hk hc', Cursor.unexpected_relocate]
    exact .failed _ c

end Reading

open Reading

/-! ## Expressions -/

theorem relocates_readName (c : Cursor) :
    (Name.read c).Relocates f (Name.relocate f) (Name.read (c.relocate f)) :=
  (relocates_eat c _).map

theorem relocates_readLiteral (c : Cursor) {kind : Kind} (hk : kind ≠ .finish) :
    (Expr.readLiteral c kind hk).Relocates f (Expr.relocate f)
      (Expr.readLiteral (c.relocate f) kind hk) := by
  refine (relocates_eat c hk).bind fun t c₁ lt lt' => ?_
  have hvalue : (t.relocate f).value? = t.value? := rfl
  rw [hvalue]
  cases t.value? with
  | some value => exact .done (Expr.literal value t.line) c₁ lt lt'
  | none => exact .failed (SyntaxError.literalTooLarge t.text t.line) c₁

theorem relocates_expressions :
    (∀ c, (Expr.read c).Relocates f (Expr.relocate f) (Expr.read (c.relocate f))) ∧
    (∀ left c, (Expr.readSum left c).Relocates f (Expr.relocate f)
      (Expr.readSum (left.relocate f) (c.relocate f))) ∧
    (∀ c, (Expr.readTerm c).Relocates f (Expr.relocate f) (Expr.readTerm (c.relocate f))) ∧
    (∀ left c, (Expr.readProduct left c).Relocates f (Expr.relocate f)
      (Expr.readProduct (left.relocate f) (c.relocate f))) ∧
    (∀ c, (Expr.readFactor c).Relocates f (Expr.relocate f) (Expr.readFactor (c.relocate f))) := by
  refine Expr.read.mutual_induct _ _ _ _ _ ?_ ?_ ?_ ?_ ?_ ?_ ?_ ?_ ?_ ?_ ?_
  · -- an expression
    intro c hterm hsum
    rw [Expr.read, Expr.read]
    exact hterm.bind fun left c₁ lt _ => (hsum left c₁ lt).weaken _ _
  · -- a chain of sums, at its end
    intro left c hop
    have hop' : BinaryOperator.ofSumKind? (c.relocate f).current.kind = none := hop
    rw [Expr.readSum, hop, Expr.readSum, hop']
    exact .done left c _ _
  · -- a chain of sums that goes on
    intro left c op hop hterm hsum
    have hop' : BinaryOperator.ofSumKind? (c.relocate f).current.kind = some op := hop
    rw [Expr.readSum, hop, Expr.readSum, hop']
    refine (relocates_eat c _).bind fun t c₁ lt _ => ?_
    exact (hterm c₁ lt).bind fun right c₂ lt' _ => (hsum t c₁ lt right c₂ lt').weaken _ _
  · -- a term
    intro c hfactor hproduct
    rw [Expr.readTerm, Expr.readTerm]
    exact hfactor.bind fun left c₁ lt _ => (hproduct left c₁ lt).weaken _ _
  · -- a chain of products, at its end
    intro left c hop
    have hop' : BinaryOperator.ofProductKind? (c.relocate f).current.kind = none := hop
    rw [Expr.readProduct, hop, Expr.readProduct, hop']
    exact .done left c _ _
  · -- a chain of products that goes on
    intro left c op hop hfactor hproduct
    have hop' : BinaryOperator.ofProductKind? (c.relocate f).current.kind = some op := hop
    rw [Expr.readProduct, hop, Expr.readProduct, hop']
    refine (relocates_eat c _).bind fun t c₁ lt _ => ?_
    exact (hfactor c₁ lt).bind fun right c₂ lt' _ => (hproduct t c₁ lt right c₂ lt').weaken _ _
  · -- a sign
    intro c op hop ih
    have hop' : UnaryOperator.ofKind? (c.relocate f).current.kind = some op := hop
    rw [Expr.readFactor, hop, Expr.readFactor, hop']
    refine (relocates_eat c _).bind fun t c₁ lt _ => ?_
    exact ((ih c₁ lt).map).weaken _ _
  · -- a whole number
    intro c hop hk
    have hop' : UnaryOperator.ofKind? (c.relocate f).current.kind = none := hop
    rw [Expr.readFactor, hop, Expr.readFactor, hop']
    simp only [hk, Cursor.kind_relocate]
    exact relocates_readLiteral c _
  · -- a floating-point number
    intro c hop hk
    have hop' : UnaryOperator.ofKind? (c.relocate f).current.kind = none := hop
    rw [Expr.readFactor, hop, Expr.readFactor, hop']
    simp only [hk, Cursor.kind_relocate]
    exact relocates_readLiteral c _
  · -- parentheses
    intro c hop hk ih
    have hop' : UnaryOperator.ofKind? (c.relocate f).current.kind = none := hop
    rw [Expr.readFactor, hop, Expr.readFactor, hop']
    simp only [hk, Cursor.kind_relocate]
    refine (relocates_eat c _).bind fun _ c₁ lt _ => (ih c₁ lt).bind fun inner c₂ _ _ => ?_
    exact ((relocates_eat c₂ _).map).weaken _ _
  · -- a name
    intro c hop hi hr hp
    have hop' : UnaryOperator.ofKind? (c.relocate f).current.kind = none := hop
    rw [Expr.readFactor, hop, Expr.readFactor, hop']
    simp only [Cursor.kind_relocate]
    exact (relocates_readName c).map

theorem relocates_readExpr (c : Cursor) :
    (Expr.read c).Relocates f (Expr.relocate f) (Expr.read (c.relocate f)) :=
  relocates_expressions.1 c

/-! ## Statements -/

theorem relocates_readAssignment (c : Cursor) :
    (Statement.readAssignment c).Relocates f (Statement.relocate f)
      (Statement.readAssignment (c.relocate f)) := by
  refine (relocates_readName c).bind fun target c₁ _ _ => ?_
  refine (relocates_eat c₁ _).bind fun t c₂ _ _ => ?_
  exact ((relocates_readExpr c₂).map fun value => by rw [Statement.relocate]; rfl).weaken _ _

theorem relocates_statements :
    (∀ c, (Statement.readCompound c).Relocates f (Statement.relocateAll f)
      (Statement.readCompound (c.relocate f))) ∧
    (∀ c, (Statement.readList c).Relocates f (Statement.relocateAll f)
      (Statement.readList (c.relocate f))) ∧
    (∀ c, (Statement.read c).Relocates f (Statement.relocate f)
      (Statement.read (c.relocate f))) := by
  refine Statement.readCompound.mutual_induct _ _ _ ?_ ?_ ?_ ?_ ?_
  · -- a compound statement
    intro c ih
    rw [Statement.readCompound, Statement.readCompound]
    refine (relocates_eat c _).bind fun _ c₁ lt _ => (ih c₁ lt).bind fun body c₂ _ _ => ?_
    exact ((relocates_eat c₂ _).map).weaken _ _
  · -- statements
    intro c hfirst hrest
    rw [Statement.readList, Statement.readList]
    refine hfirst.bind fun first c₁ lt _ => ?_
    refine .branch c₁ _ ?_ (.done [first] c₁ _ _)
    refine (relocates_eat c₁ _).bind fun _ c₂ lt' _ => ?_
    exact ((hrest c₁ lt c₂ lt').map).weaken _ _
  · -- a compound statement as a statement
    intro c hc hcompound
    rw [Statement.read, Statement.read]
    simp only [hc, Cursor.kind_relocate]
    exact (hcompound.map fun _ => by rw [Statement.relocate]).weaken _ _
  · -- an assignment
    intro c hc
    rw [Statement.read, Statement.read]
    simp only [hc, Cursor.kind_relocate]
    exact (relocates_readAssignment c).weaken _ _
  · -- the empty statement
    intro c hb hn
    rw [Statement.read, Statement.read]
    simp only [Cursor.kind_relocate]
    exact .done Statement.empty c _ _

/-! ## Declarations -/

theorem relocates_readNames (c : Cursor) :
    (Name.readList c).Relocates f (List.map (Name.relocate f)) (Name.readList (c.relocate f)) := by
  induction c using Name.readList.induct with
  | case1 c ih =>
    rw [Name.readList, Name.readList]
    refine (relocates_readName c).bind fun first c₁ lt _ => ?_
    refine .branch c₁ _ ?_ (.done [first] c₁ _ _)
    refine (relocates_eat c₁ _).bind fun _ c₂ lt' _ => ?_
    exact ((ih c₁ lt c₂ lt').map).weaken _ _

theorem relocates_readType (c : Cursor) :
    (Name.readType c).Relocates f (Name.relocate f) (Name.readType (c.relocate f)) := by
  unfold Name.readType
  by_cases h : c.current.kind.isType
  · rw [dif_pos h, dif_pos (show (c.relocate f).current.kind.isType from h)]
    exact (relocates_eat c _).map
  · rw [dif_neg h, dif_neg (show ¬ (c.relocate f).current.kind.isType from h)]
    exact .failed (.noType c.current.culprit) c

theorem relocates_readGroup (c : Cursor) :
    (Binding.readGroup c).Relocates f (List.map (Binding.relocate f))
      (Binding.readGroup (c.relocate f)) := by
  refine (relocates_readNames c).bind fun names c₁ _ _ => ?_
  refine (relocates_eat c₁ _).bind fun _ c₂ _ _ => ?_
  refine ((relocates_readType c₂).map fun type => ?_).weaken _ _
  rw [List.map_map, List.map_map]
  rfl

theorem relocates_readParameters (c : Cursor) :
    (Binding.readParameters c).Relocates f (List.map (Binding.relocate f))
      (Binding.readParameters (c.relocate f)) := by
  induction c using Binding.readParameters.induct with
  | case1 c ih =>
    rw [Binding.readParameters, Binding.readParameters]
    refine (relocates_readGroup c).bind fun group c₁ lt _ => ?_
    refine .branch c₁ _ ?_ (.done group c₁ _ _)
    refine (relocates_eat c₁ _).bind fun _ c₂ lt' _ => ?_
    exact ((ih c₁ lt c₂ lt').map fun _ => List.map_append.symm).weaken _ _

theorem relocates_readVariables (c : Cursor) :
    (Binding.readVariables c).Relocates f (List.map (Binding.relocate f))
      (Binding.readVariables (c.relocate f)) := by
  induction c using Binding.readVariables.induct with
  | case1 c ih =>
    rw [Binding.readVariables, Binding.readVariables]
    refine (relocates_readGroup c).bind fun group c₁ lt _ => ?_
    refine (relocates_eat c₁ _).bind fun _ c₂ lt' _ => ?_
    refine .branch c₂ _ ?_ (.done group c₂ _ _)
    exact ((ih c₁ lt c₂ lt').map fun _ => List.map_append.symm).weaken _ _

theorem relocates_readSection (c : Cursor) :
    (Binding.readSection c).Relocates f (List.map (Binding.relocate f))
      (Binding.readSection (c.relocate f)) := by
  refine .branch c _ ?_ (.done [] c _ _)
  exact (relocates_eat c _).bind fun _ c₁ _ _ => (relocates_readVariables c₁).weaken _ _

theorem relocates_readParameterList (c : Cursor) :
    (Binding.readParameterList c).Relocates f (List.map (Binding.relocate f))
      (Binding.readParameterList (c.relocate f)) := by
  refine .branch c _ ?_ (.done [] c _ _)
  refine (relocates_eat c _).bind fun _ c₁ _ _ => ?_
  refine (relocates_readParameters c₁).bind fun parameters c₂ _ _ => ?_
  exact ((relocates_eat c₂ _).map).weaken _ _

/-! ## Blocks and programs -/

theorem Declaration.relocateAll_eq_map (ds : List Declaration) :
    Declaration.relocateAll f ds = ds.map (Declaration.relocate f) := by
  induction ds with
  | nil => rfl
  | cons first more ih => rw [relocateAll, ih, List.map_cons]

theorem Block.relocate_mk (bindings : List Binding) (procedures : List Declaration)
    (body : List Statement) :
    Block.relocate f ⟨bindings.map .variable ++ procedures, body⟩ =
      ⟨(bindings.map (Binding.relocate f)).map .variable ++ Declaration.relocateAll f procedures,
        Statement.relocateAll f body⟩ := by
  simp only [relocate, Declaration.relocateAll_eq_map, List.map_append, List.map_map]
  rfl

theorem relocates_blocks :
    (∀ c, (Block.read c).Relocates f (Block.relocate f) (Block.read (c.relocate f))) ∧
    (∀ c, (Declaration.readProcedures c).Relocates f (Declaration.relocateAll f)
      (Declaration.readProcedures (c.relocate f))) ∧
    (∀ c, (Declaration.readProcedure c).Relocates f (Declaration.relocate f)
      (Declaration.readProcedure (c.relocate f))) := by
  refine Block.read.mutual_induct _ _ _ ?_ ?_ ?_ ?_
  · -- a block
    intro c ih
    rw [Block.read, Block.read]
    refine (relocates_readSection c).bind fun bindings c₁ lt _ => ?_
    refine (ih c₁ lt).bind fun procedures c₂ _ _ => ?_
    refine ((relocates_statements.1 c₂).map fun body => ?_).weaken _ _
    exact (Block.relocate_mk bindings procedures body).symm
  · -- procedures, of which there is one
    intro c hc hfirst hrest
    rw [Declaration.readProcedures, Declaration.readProcedures]
    refine .branch c _ ?_ (.done [] c _ _)
    refine hfirst.bind fun first c₁ lt _ => (relocates_eat c₁ _).bind fun _ c₂ lt' _ => ?_
    exact ((hrest c₁ lt c₂ lt').map).weaken _ _
  · -- no procedures
    intro c hc
    have hc' : ¬ (c.relocate f).isAt (.keyword .procedure) := hc
    rw [Declaration.readProcedures, if_neg hc, Declaration.readProcedures, if_neg hc']
    exact .done [] c _ _
  · -- a procedure
    intro c ih
    rw [Declaration.readProcedure, Declaration.readProcedure]
    refine (relocates_eat c _).bind fun opening c₁ lt₁ _ => ?_
    refine (relocates_readName c₁).bind fun name c₂ lt₂ _ => ?_
    refine (relocates_readParameterList c₂).bind fun parameters c₃ lt₃ _ => ?_
    refine (relocates_eat c₃ _).bind fun _ c₄ lt₄ _ => ?_
    exact ((ih c₁ lt₁ c₂ lt₂ c₃ lt₃ c₄ lt₄).map).weaken _ _

theorem relocates_readProgram (c : Cursor) :
    (Program.read c).Relocates f (Program.relocate f) (Program.read (c.relocate f)) := by
  refine (relocates_eat c _).bind fun _ c₁ _ _ => ?_
  refine (relocates_readName c₁).bind fun name c₂ _ _ => ?_
  refine (relocates_eat c₂ _).bind fun _ c₃ _ _ => ?_
  refine (relocates_blocks.1 c₃).bind fun block c₄ _ _ => ?_
  exact ((relocates_eat c₄ _).map).weaken _ _

/-- Reads a program from a feed. -/
def Program.ofFeed (feed : Feed) : Except SyntaxError Program := do
  Program.readAll (← Cursor.ofFeed feed)

theorem Program.readAll_relocate (c : Cursor) :
    Program.readAll (c.relocate f) =
      ((Program.readAll c).mapError (SyntaxError.relocate f)).map (Program.relocate f) := by
  have hread := relocates_readProgram (f := f) c
  unfold Program.readAll
  generalize Program.read c = r at hread ⊢
  generalize Program.read (c.relocate f) = r' at hread ⊢
  cases hread with
  | done p c' lt lt' =>
    show (if (c'.relocate f).isAt .finish then _ else _) =
      Except.map _ (Except.mapError _ (if c'.isAt .finish then _ else _))
    rw [Cursor.isAt_relocate]
    by_cases hfinish : c'.isAt .finish
    · rw [if_pos hfinish, if_pos hfinish]
      rfl
    · rw [if_neg hfinish, if_neg hfinish]
      rfl
  | failed cause c' => rfl

/-- From a feed with its tokens on other lines the same program is read on other lines, or there is
the same error on other lines. -/
theorem Program.ofFeed_relocate (feed : Feed) :
    Program.ofFeed (feed.relocate f) =
      ((Program.ofFeed feed).mapError (SyntaxError.relocate f)).map (Program.relocate f) := by
  have hpull := feed.pull_relocate (f := f)
  unfold ofFeed Cursor.ofFeed
  rw [hpull]
  obtain ⟨answer, ahead⟩ := feed.pull
  cases answer with
  | ok t => exact readAll_relocate ⟨[], t, ahead⟩
  | error e => rfl

end PocketPascal
