import PocketPascal.Proofs.Syntax.Acceptance
import PocketPascal.Proofs.Token.Attempts

/-!
# Readers and their attempts

A reader moves its cursor by attempts to eat and in no other way, and the first attempt that fails
ends the reading. `Takes` says which attempts a reading has taken; there is a rule for each way in
which readers are put together, and all readers follow from the rules. The main statement is that no
token is lost or doubled, however many expressions are read from one cursor and whatever becomes of
them, and the same for the reading of a program.
-/

namespace PocketPascal

/-- The error is one that a reader raises about what it has seen, and not the end of an attempt. -/
def SyntaxError.isObjection : SyntaxError → Bool
  | .noType _ | .literalTooLarge _ _ => true
  | .lexical _ | .unexpected _ _ _ | .trailing _ => false

namespace Reading

variable {α β : Type} {n m : Nat} {c : Cursor} {as : List Attempt}

/-- The reading has taken the attempts, one after another, from the cursor on. -/
inductive Takes (c : Cursor) : List Attempt → Reading n α → Prop where
  /-- All attempts have succeeded. -/
  | done {as : List Attempt} {value : α} {c' : Cursor} {lt : c'.remaining < n} (h : c.Leads as c')
      (hs : ∀ a ∈ as, a.eaten?.isSome) : Takes c as (.done value c' lt)
  /-- The last attempt has failed, and the reading with it. -/
  | refused {as : List Attempt} {a : Attempt} {cause : SyntaxError} {c' : Cursor}
      (h : c.Leads as a.cursor) (hs : ∀ a ∈ as, a.eaten?.isSome)
      (hf : a.outcome = .failed cause c') : Takes c (as ++ [a]) (.failed cause c')
  /-- All attempts have succeeded, but there was something that does not fit. -/
  | objected {as : List Attempt} {cause : SyntaxError} {c' : Cursor} (h : c.Leads as c')
      (hs : ∀ a ∈ as, a.eaten?.isSome) (hc : cause.isObjection) : Takes c as (.failed cause c')

/-- The attempts of a reading lead to where the reading has come. -/
theorem Takes.leads {r : Reading n α} (h : r.Takes c as) : c.Leads as r.after := by
  cases h with
  | done h _ => exact h
  | @refused _ a _ c' h _ hf =>
    have hnext : a.next = c' := by rw [Attempt.next, hf]; rfl
    exact h.trans (hnext ▸ Cursor.leads_single a)
  | objected h _ _ => exact h

/-- The reading has taken some attempts. -/
def Tries (c : Cursor) (r : Reading n α) : Prop := ∃ as, r.Takes c as

/-! ## The rules -/

theorem tries_done {value : α} {lt : c.remaining < n} : (done value c lt).Tries c :=
  ⟨[], .done (.none c) (by simp)⟩

theorem tries_objected {cause : SyntaxError} (hc : cause.isObjection) :
    (failed cause c : Reading n α).Tries c :=
  ⟨[], .objected (.none c) (by simp) hc⟩

theorem tries_eat (c : Cursor) {kind : Kind} (hk : kind ≠ .finish) : (c.eat kind hk).Tries c := by
  let a : Attempt := ⟨c, kind, hk⟩
  refine ⟨[a], ?_⟩
  show a.outcome.Takes c [a]
  have hleads : c.Leads [a] a.outcome.after := Cursor.leads_single a
  cases ho : a.outcome with
  | failed cause c' =>
    have hs : ∀ b ∈ ([] : List Attempt), b.eaten?.isSome := by simp
    have h : Takes c ([] ++ [a]) (.failed cause c' : Reading c.remaining Token) :=
      .refused (.none _) hs ho
    exact h
  | done t c' lt =>
    rw [ho] at hleads
    exact .done hleads (by simp [Attempt.eaten?, ho, Except.toOption])

theorem Tries.bind {r : Reading n α} {next : α → (c : Cursor) → c.remaining < n → Reading m β}
    (hr : r.Tries c) (hnext : ∀ value c' lt, (next value c' lt).Tries c') :
    (r.bind next).Tries c := by
  obtain ⟨as, hr⟩ := hr
  cases hr with
  | refused h hs hf => exact ⟨_, .refused h hs hf⟩
  | objected h hs hc => exact ⟨_, .objected h hs hc⟩
  | @done _ value c' lt h hs =>
    obtain ⟨bs, hn⟩ := hnext value c' lt
    have hall : ∀ {bs : List Attempt}, (∀ b ∈ bs, b.eaten?.isSome) →
        ∀ a ∈ as ++ bs, a.eaten?.isSome :=
      fun hbs a ha => (List.mem_append.1 ha).elim (hs a) (hbs a)
    show ∃ cs, (next value c' lt).Takes c cs
    cases hn' : next value c' lt with
    | done value' c'' lt' =>
      rw [hn'] at hn
      cases hn with
      | done h' hs' => exact ⟨_, .done (h.trans h') (hall hs')⟩
    | failed cause c'' =>
      rw [hn'] at hn
      cases hn with
      | refused h' hs' hf => exact ⟨_, .refused (h.trans h') (hall hs') hf⟩
      | objected h' hs' hc => exact ⟨_, .objected (h.trans h') (hall hs') hc⟩

theorem Tries.map {r : Reading n α} (hr : r.Tries c) (f : α → β) : (r.map f).Tries c := by
  obtain ⟨as, hr⟩ := hr
  cases hr with
  | done h hs => exact ⟨_, .done h hs⟩
  | refused h hs hf => exact ⟨_, .refused h hs hf⟩
  | objected h hs hc => exact ⟨_, .objected h hs hc⟩

theorem Tries.weaken {r : Reading n α} (hr : r.Tries c) (h : n ≤ m) : (r.weaken h).Tries c := by
  obtain ⟨as, hr⟩ := hr
  cases hr with
  | done h hs => exact ⟨_, .done h hs⟩
  | refused h hs hf => exact ⟨_, .refused h hs hf⟩
  | objected h hs hc => exact ⟨_, .objected h hs hc⟩

theorem Tries.branch {r r' : Reading n α} {p : Prop} [Decidable p] (hr : r.Tries c)
    (hr' : r'.Tries c) : (if p then r else r').Tries c := by
  split
  · exact hr
  · exact hr'

end Reading

open Reading

/-! ## The readers of expressions -/

theorem tries_readName (c : Cursor) : (Name.read c).Tries c := (tries_eat c _).map _

theorem tries_readLiteral (c : Cursor) {kind : Kind} (hk : kind ≠ .finish) :
    (Expr.readLiteral c kind hk).Tries c := by
  refine (tries_eat c hk).bind fun t c₁ lt => ?_
  cases t.value? with
  | some value => exact tries_done
  | none => exact tries_objected rfl

theorem tries_expressions :
    (∀ c, (Expr.read c).Tries c) ∧ (∀ left c, (Expr.readSum left c).Tries c) ∧
    (∀ c, (Expr.readTerm c).Tries c) ∧ (∀ left c, (Expr.readProduct left c).Tries c) ∧
    (∀ c, (Expr.readFactor c).Tries c) := by
  refine Expr.read.mutual_induct _ _ _ _ _ ?_ ?_ ?_ ?_ ?_ ?_ ?_ ?_ ?_ ?_ ?_
  · -- an expression
    intro c hterm hsum
    rw [Expr.read]
    exact hterm.bind fun left c₁ lt => (hsum left c₁ lt).weaken _
  · -- a chain of sums, at its end
    intro left c hop
    rw [Expr.readSum, hop]
    exact tries_done
  · -- a chain of sums that goes on
    intro left c op hop hterm hsum
    rw [Expr.readSum, hop]
    refine (tries_eat c _).bind fun t c₁ lt => (hterm c₁ lt).bind fun right c₂ lt' => ?_
    exact (hsum t c₁ lt right c₂ lt').weaken _
  · -- a term
    intro c hfactor hproduct
    rw [Expr.readTerm]
    exact hfactor.bind fun left c₁ lt => (hproduct left c₁ lt).weaken _
  · -- a chain of products, at its end
    intro left c hop
    rw [Expr.readProduct, hop]
    exact tries_done
  · -- a chain of products that goes on
    intro left c op hop hfactor hproduct
    rw [Expr.readProduct, hop]
    refine (tries_eat c _).bind fun t c₁ lt => (hfactor c₁ lt).bind fun right c₂ lt' => ?_
    exact (hproduct t c₁ lt right c₂ lt').weaken _
  · -- a sign
    intro c op hop ih
    rw [Expr.readFactor, hop]
    exact (tries_eat c _).bind fun t c₁ lt => ((ih c₁ lt).map _).weaken _
  · -- a whole number
    intro c hop hk
    rw [Expr.readFactor, hop]
    simp only [hk]
    exact tries_readLiteral c _
  · -- a floating-point number
    intro c hop hk
    rw [Expr.readFactor, hop]
    simp only [hk]
    exact tries_readLiteral c _
  · -- parentheses
    intro c hop hk ih
    rw [Expr.readFactor, hop]
    simp only [hk]
    refine (tries_eat c _).bind fun _ c₁ lt => (ih c₁ lt).bind fun inner c₂ _ => ?_
    exact ((tries_eat c₂ _).map _).weaken _
  · -- a name
    intro c hop hi hr hp
    rw [Expr.readFactor, hop]
    simp only
    exact (tries_readName c).map _

theorem tries_readExpr (c : Cursor) : (Expr.read c).Tries c := tries_expressions.1 c

/-! ## The readers of statements -/

theorem tries_readAssignment (c : Cursor) : (Statement.readAssignment c).Tries c :=
  (tries_readName c).bind fun _ c₁ _ => (tries_eat c₁ _).bind fun _ c₂ _ =>
    ((tries_readExpr c₂).map _).weaken _

theorem tries_statements :
    (∀ c, (Statement.readCompound c).Tries c) ∧ (∀ c, (Statement.readList c).Tries c) ∧
    (∀ c, (Statement.read c).Tries c) := by
  refine Statement.readCompound.mutual_induct _ _ _ ?_ ?_ ?_ ?_ ?_
  · -- a compound statement
    intro c ih
    rw [Statement.readCompound]
    refine (tries_eat c _).bind fun _ c₁ lt => (ih c₁ lt).bind fun body c₂ _ => ?_
    exact ((tries_eat c₂ _).map _).weaken _
  · -- statements
    intro c hfirst hrest
    rw [Statement.readList]
    refine hfirst.bind fun first c₁ lt => .branch ?_ tries_done
    exact (tries_eat c₁ _).bind fun _ c₂ lt' => ((hrest c₁ lt c₂ lt').map _).weaken _
  · -- a compound statement as a statement
    intro c hc hcompound
    rw [Statement.read]
    simp only [hc]
    exact (hcompound.map _).weaken _
  · -- an assignment
    intro c hc
    rw [Statement.read]
    simp only [hc]
    exact (tries_readAssignment c).weaken _
  · -- the empty statement
    intro c hb hn
    rw [Statement.read]
    simp only
    exact tries_done

/-! ## The readers of declarations -/

theorem tries_readNames (c : Cursor) : (Name.readList c).Tries c := by
  induction c using Name.readList.induct with
  | case1 c ih =>
    rw [Name.readList]
    refine (tries_readName c).bind fun first c₁ lt => .branch ?_ tries_done
    exact (tries_eat c₁ _).bind fun _ c₂ lt' => ((ih c₁ lt c₂ lt').map _).weaken _

theorem tries_readType (c : Cursor) : (Name.readType c).Tries c := by
  unfold Name.readType
  split
  · exact (tries_eat c _).map _
  · exact tries_objected rfl

theorem tries_readGroup (c : Cursor) : (Binding.readGroup c).Tries c :=
  (tries_readNames c).bind fun _ c₁ _ => (tries_eat c₁ _).bind fun _ c₂ _ =>
    ((tries_readType c₂).map _).weaken _

theorem tries_readParameters (c : Cursor) : (Binding.readParameters c).Tries c := by
  induction c using Binding.readParameters.induct with
  | case1 c ih =>
    rw [Binding.readParameters]
    refine (tries_readGroup c).bind fun group c₁ lt => .branch ?_ tries_done
    exact (tries_eat c₁ _).bind fun _ c₂ lt' => ((ih c₁ lt c₂ lt').map _).weaken _

theorem tries_readVariables (c : Cursor) : (Binding.readVariables c).Tries c := by
  induction c using Binding.readVariables.induct with
  | case1 c ih =>
    rw [Binding.readVariables]
    refine (tries_readGroup c).bind fun group c₁ lt => ?_
    refine (tries_eat c₁ _).bind fun _ c₂ lt' => .branch ?_ tries_done
    exact ((ih c₁ lt c₂ lt').map _).weaken _

theorem tries_readSection (c : Cursor) : (Binding.readSection c).Tries c :=
  .branch ((tries_eat c _).bind fun _ c₁ _ => (tries_readVariables c₁).weaken _) tries_done

theorem tries_readParameterList (c : Cursor) : (Binding.readParameterList c).Tries c := by
  refine .branch ((tries_eat c _).bind fun _ c₁ _ => ?_) tries_done
  exact (tries_readParameters c₁).bind fun _ c₂ _ => ((tries_eat c₂ _).map _).weaken _

theorem tries_blocks :
    (∀ c, (Block.read c).Tries c) ∧ (∀ c, (Declaration.readProcedures c).Tries c) ∧
    (∀ c, (Declaration.readProcedure c).Tries c) := by
  refine Block.read.mutual_induct _ _ _ ?_ ?_ ?_ ?_
  · -- a block
    intro c ih
    rw [Block.read]
    refine (tries_readSection c).bind fun bindings c₁ lt => (ih c₁ lt).bind fun _ c₂ _ => ?_
    exact ((tries_statements.1 c₂).map _).weaken _
  · -- procedures, of which there is one
    intro c hc hfirst hrest
    rw [Declaration.readProcedures, if_pos hc]
    refine hfirst.bind fun first c₁ lt => (tries_eat c₁ _).bind fun _ c₂ lt' => ?_
    exact ((hrest c₁ lt c₂ lt').map _).weaken _
  · -- no procedures
    intro c hc
    rw [Declaration.readProcedures, if_neg hc]
    exact tries_done
  · -- a procedure
    intro c ih
    rw [Declaration.readProcedure]
    refine (tries_eat c _).bind fun opening c₁ lt₁ => ?_
    refine (tries_readName c₁).bind fun name c₂ lt₂ => ?_
    refine (tries_readParameterList c₂).bind fun parameters c₃ lt₃ => ?_
    refine (tries_eat c₃ _).bind fun _ c₄ lt₄ => ?_
    exact ((ih c₁ lt₁ c₂ lt₂ c₃ lt₃ c₄ lt₄).map _).weaken _

theorem tries_readProgram (c : Cursor) : (Program.read c).Tries c := by
  refine (tries_eat c _).bind fun _ c₁ _ => (tries_readName c₁).bind fun _ c₂ _ => ?_
  refine (tries_eat c₂ _).bind fun _ c₃ _ => (tries_blocks.1 c₃).bind fun _ c₄ _ => ?_
  exact ((tries_eat c₄ _).map _).weaken _

/-! ## Errors -/

/-- If the error is that a token of another kind was expected, it shows the current token of the
cursor, with its line, and the tokens that the cursor remembers. -/
def SyntaxError.Shows (cause : SyntaxError) (c : Cursor) : Prop :=
  ∀ expected found recent, cause = .unexpected expected found recent →
    found.token = c.current ∧ cause.line = c.current.line ∧ recent = c.recent

/-- An attempt that fails eats nothing, and it leaves the current token and what is remembered as
they are. If it fails for a token of another kind, it leaves the scanner as it is, too, and the error
shows this token. -/
def Attempt.Spares (a : Attempt) : Prop :=
  ∀ cause c, a.outcome = .failed cause c →
    a.eaten? = none ∧ c.current = a.cursor.current ∧ c.recent = a.cursor.recent ∧
      ((∃ e, cause = .lexical e) ∨ c = a.cursor ∧ cause = a.cursor.unexpected a.kind) ∧
      cause.Shows c

theorem Attempt.spares (a : Attempt) : a.Spares := by
  intro cause c h
  have heaten : a.eaten? = none := by
    rw [eaten?, h]
    rfl
  obtain ⟨hcurrent, hrecent, hcause⟩ := spared_of_failed h
  rcases hcause with ⟨e, rfl⟩ | ⟨rfl, rfl⟩
  · refine ⟨heaten, hcurrent, hrecent, .inl ⟨e, rfl⟩, ?_⟩
    intro expected found recent he
    cases he
  · refine ⟨heaten, hcurrent, hrecent, .inr ⟨rfl, rfl⟩, ?_⟩
    intro expected found recent he
    cases he
    exact ⟨rfl, rfl, rfl⟩

theorem Reading.Takes.shows {α : Type} {n : Nat} {c c' : Cursor} {as : List Attempt}
    {cause : SyntaxError} (h : (failed cause c' : Reading n α).Takes c as) : cause.Shows c' := by
  cases h with
  | @refused _ a _ _ _ _ hf => exact (a.spares cause c' hf).2.2.2.2
  | objected _ _ hc =>
    intro expected found recent he
    subst he
    cases hc

/-! ## Any number of readings -/

/-- Expressions are read one after another, each from where the one before has come to, whatever has
become of that one. The attempts are listed reading by reading. -/
inductive Session : Cursor → List (List Attempt) → Cursor → Prop where
  /-- Nothing is read. -/
  | none (c : Cursor) : Session c [] c
  /-- An expression is read, or not, and others after it. -/
  | more {c c' : Cursor} {as : List Attempt} {readings : List (List Attempt)}
      (h : (Expr.read c).Takes c as) (hs : Session (Expr.read c).after readings c') :
      Session c (as :: readings) c'

theorem exists_session (n : Nat) (c : Cursor) :
    ∃ readings c', readings.length = n ∧ Session c readings c' := by
  induction n generalizing c with
  | zero => exact ⟨[], c, rfl, .none c⟩
  | succ n ih =>
    obtain ⟨as, h⟩ := tries_readExpr c
    obtain ⟨readings, c', hlength, hs⟩ := ih (Expr.read c).after
    exact ⟨as :: readings, c', by rw [List.length_cons, hlength], .more h hs⟩

theorem Session.leads {c c' : Cursor} {readings : List (List Attempt)}
    (h : Session c readings c') : c.Leads readings.flatten c' := by
  induction h with
  | none c => exact .none c
  | more h _ ih =>
    rw [List.flatten_cons]
    exact h.leads.trans ih

/-- The attempts lead from the first cursor of a source text to another one, and wherever they are
interrupted, the books are balanced. -/
def BalancedThrough (source : String) (c₀ : Cursor) (as : List Attempt) (c : Cursor) : Prop :=
  ∀ before after, as = before ++ after →
    ∃ m, c₀.Leads before m ∧ m.Leads after c ∧ Balanced source before m

theorem balancedThrough_of_leads {source : String} {c₀ c : Cursor} {as : List Attempt}
    (h₀ : Cursor.ofSource source = .ok c₀) (h : c₀.Leads as c) :
    BalancedThrough source c₀ as c := by
  rintro before after rfl
  obtain ⟨m, hbefore, hafter⟩ := h.of_append
  exact ⟨m, hbefore, hafter, (Balanced.start h₀).leads hbefore⟩

/-- No token is lost or doubled. However many expressions are read from a source text, one after
another and past all errors, the books are balanced after every single attempt to eat. When a source
text is no program, they have been balanced up to the error, unless there was not even a first token.
An attempt that fails spares the cursor, and every error about a token of another kind, of an attempt
or of a whole reading, shows the current token and the tokens eaten last. -/
theorem tokens_balanced (source : String) :
    (∀ c₀, Cursor.ofSource source = .ok c₀ →
      (∀ n, ∃ readings c, readings.length = n ∧ Session c₀ readings c) ∧
      ∀ readings c, Session c₀ readings c → BalancedThrough source c₀ readings.flatten c) ∧
    (∀ cause, Program.ofSource source = .error cause →
      (∃ e, cause = .lexical e ∧ Cursor.ofSource source = .error cause ∧
        (Scanner.ofSource source).returned 1 = []) ∨
      ∃ c₀ as, Cursor.ofSource source = .ok c₀ ∧ (Program.read c₀).Takes c₀ as ∧
        BalancedThrough source c₀ as (Program.read c₀).after ∧
        cause.Shows (Program.read c₀).after) ∧
    (∀ a : Attempt, a.Spares) ∧
    ∀ c cause after, Expr.read c = .failed cause after → cause.Shows after := by
  refine ⟨fun c₀ h₀ => ⟨fun n => exists_session n c₀, ?_⟩, fun cause h => ?_, Attempt.spares, ?_⟩
  · intro readings c hs
    exact balancedThrough_of_leads h₀ hs.leads
  · cases h₀ : Cursor.ofSource source with
    | error cause' =>
      obtain ⟨e, rfl, he⟩ := Cursor.ofSource_eq_error_iff.1 h₀
      rw [Program.ofSource, h₀] at h
      cases h
      exact .inl ⟨e, rfl, rfl, Scanner.returned_succ_of_error (n := 0) he⟩
    | ok c₀ =>
      obtain ⟨as, htakes⟩ := tries_readProgram c₀
      refine .inr ⟨c₀, as, rfl, htakes, balancedThrough_of_leads h₀ htakes.leads, ?_⟩
      rw [Grammar.ofSource_eq_readAll h₀, Program.readAll] at h
      split at h
      · -- all of a program has been read: the error is about what follows it
        split at h
        · cases h
        · cases h
          intro expected found recent he
          cases he
      · rename_i cause' after hread
        cases h
        rw [hread] at htakes ⊢
        exact htakes.shows
  · intro c cause after h
    obtain ⟨as, htakes⟩ := tries_readExpr c
    rw [h] at htakes
    exact htakes.shows

end PocketPascal
