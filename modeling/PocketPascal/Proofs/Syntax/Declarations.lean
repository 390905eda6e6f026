import PocketPascal.Proofs.Syntax.Statements

/-!
# Declarations and programs are read as the grammar says

The readers of bindings, declarations, blocks and programs meet the rules of the grammar. Whether a
block declares variables, whether a procedure has parameters, and where a list of either ends, is
decided by the kind of one token.
-/

namespace PocketPascal.Grammar

variable {c : Cursor}

/-! ## Names and groups -/

/-- A name where it is declared. -/
def declaredName : Piece Name := Piece.map (fun t => ⟨t.text, t.line⟩) (Piece.token .name)

/-- The name of a type. -/
def typeName : Piece Name :=
  fun ts type => ∃ t, ts = [t] ∧ TypeWord t.kind ∧ type = ⟨t.text, t.line⟩

theorem isNames_eq_headed : IsNames =
    Piece.headed (.mark .comma) declaredName (fun first => [first])
      (fun first more => first :: more) IsNames := by
  funext ts names
  refine propext ⟨?_, ?_⟩
  · intro h
    cases h with
    | last ht => exact ⟨[_], [], _, rfl, ⟨_, ⟨rfl, ht⟩, rfl⟩, .inl ⟨rfl, rfl⟩⟩
    | more ht hs h =>
      exact ⟨[_], _, _, rfl, ⟨_, ⟨rfl, ht⟩, rfl⟩, .inr ⟨[_], _, _, rfl, ⟨rfl, hs⟩, _, h, rfl⟩⟩
  · rintro ⟨_, rs, _, rfl, ⟨t, ⟨rfl, ht⟩, rfl⟩,
      ⟨rfl, rfl⟩ | ⟨_, ms, s, rfl, ⟨rfl, hs⟩, names, hr, rfl⟩⟩
    · exact .last ht
    · exact .more ht hs hr

theorem opens_names : Opens IsNames [] :=
  ⟨[⟨.name, none, 0⟩], _, .last rfl⟩

theorem opens_declaredName : Opens declaredName [] :=
  (opens_token _).map _

theorem opens_typeName : Opens typeName [] :=
  ⟨[⟨.keyword .integer, none, 0⟩], _, _, rfl, .integer, rfl⟩

theorem meets_names (c : Cursor) : (Name.readList c).Meets c IsNames [.mark .comma] := by
  induction c using Name.readList.induct with
  | case1 c ih =>
    rw [Name.readList, isNames_eq_headed]
    refine Reading.meets_headed meets_readName (fun first c₁ h₁ c₂ h₂ => ?_) opens_names (by decide)
      (by decide) (by decide) (by simp) (by simp) (by simp)
    exact ((ih c₁ h₁ c₂ h₂).map _).weaken _

theorem meets_type : (Name.readType c).Meets c typeName [] := by
  unfold Name.readType
  split
  · rename_i ht
    have hi : c.current.kind ≠ .integer := fun h => by rw [h] at ht; cases ht
    have hr : c.current.kind ≠ .real := fun h => by rw [h] at ht; cases ht
    refine ((Reading.meets_eat (Kind.ne_finish_of_isType ht) hi hr).map _).of_alternative
      (fun z hz => hz) ?_ ?_
    · rintro ts type ⟨t, ⟨rfl, hk⟩, rfl⟩
      exact ⟨t, rfl, typeWord_iff.2 (hk ▸ ht), rfl⟩
    · rintro v type z more ⟨t, rfl, hk, rfl⟩ - he
      obtain ⟨rfl, -⟩ := List.cons.inj he
      exact ⟨_, ⟨rfl, rfl⟩, rfl⟩
  · rename_i ht
    refine .noType (.none c) held_nil (fun t hk => ⟨[], _, t, by simp, typeWord_iff.2 hk, rfl⟩) ?_
    rintro more v z type ⟨t, rfl, hk, rfl⟩ - he
    obtain ⟨rfl, -⟩ := List.cons.inj he
    exact ht (typeWord_iff.1 hk)

theorem isGroup_eq_seq : IsGroup =
    Piece.seq IsNames fun names => Piece.seq (Piece.token (.mark .colon)) fun _ =>
      Piece.map (fun type => names.map fun name => ⟨name, type⟩) typeName := by
  funext ts group
  refine propext ⟨?_, ?_⟩
  · rintro ⟨h, hc, ht⟩
    exact ⟨_, _, _, rfl, h, [_], _, _, rfl, ⟨rfl, hc⟩, _, ⟨_, rfl, ht, rfl⟩, rfl⟩
  · rintro ⟨ls, _, names, rfl, h, _, _, colon, rfl, ⟨rfl, hc⟩, _, ⟨type, rfl, ht, rfl⟩, rfl⟩
    exact .typed h hc ht

theorem opens_group : Opens IsGroup [] := by
  rw [isGroup_eq_seq]
  exact opens_names.seq_left fun _ => (opens_token _).seq_left fun _ => opens_typeName.map _

theorem meets_group : (Binding.readGroup c).Meets c IsGroup [] := by
  have typed : ∀ (names : List Name) (c₁ : Cursor) (h₁ : c₁.remaining < c.remaining),
      ((c₁.eat (.mark .colon)).bind fun _ c₂ h₂ =>
        ((Name.readType c₂).map fun type => names.map fun name => (⟨name, type⟩ : Binding)).weaken
          (show c₂.remaining ≤ c.remaining by omega)).Meets c₁
          (Piece.seq (Piece.token (.mark .colon)) fun _ =>
            Piece.map (fun type => names.map fun name => ⟨name, type⟩) typeName) [] := by
    intro names c₁ h₁
    exact (Reading.meets_eat _ (by decide) (by decide)).bind
      (fun _ c₂ h₂ => (meets_type.map _).weaken _) (fun _ => opens_typeName.map _)
      (fun _ _ _ _ _ _ => clear_none)
  unfold Binding.readGroup
  rw [isGroup_eq_seq]
  refine (meets_names c).bind typed
    (fun _ => (opens_token _).seq_left fun _ => opens_typeName.map _) ?_
  rintro names rs group z ⟨_, ms, t, rfl, ⟨rfl, ht⟩, -⟩ -
  simp [ht]

theorem IsGroup.starts {ts : List Token} {group : List Binding} (h : IsGroup ts group) :
    ∃ t more, ts = t :: more ∧ t.kind = .name := by
  cases h with
  | typed h hc ht =>
    cases h with
    | last hn => exact ⟨_, _, rfl, hn⟩
    | more hn hs h => exact ⟨_, _, rfl, hn⟩

/-! ## Parameters and variables -/

theorem isParameters_eq_headed : IsParameters =
    Piece.headed (.mark .semicolon) IsGroup (fun group => group)
      (fun group more => group ++ more) IsParameters := by
  funext ts bindings
  refine propext ⟨?_, ?_⟩
  · intro h
    cases h with
    | last h => exact ⟨_, [], _, by simp, h, .inl ⟨rfl, rfl⟩⟩
    | more h hs hr => exact ⟨_, _, _, rfl, h, .inr ⟨[_], _, _, rfl, ⟨rfl, hs⟩, _, hr, rfl⟩⟩
  · rintro ⟨ls, rs, group, rfl, h,
      ⟨rfl, rfl⟩ | ⟨_, ms, t, rfl, ⟨rfl, ht⟩, bindings, hr, rfl⟩⟩
    · simpa using IsParameters.last h
    · exact .more h ht hr

/-- Variables are a first group with its semicolon, and the others if a name follows. -/
theorem isVariables_eq_seq : IsVariables =
    Piece.seq IsGroup fun group => Piece.seq (Piece.token (.mark .semicolon)) fun _ =>
      Piece.optional group (Piece.map (fun more => group ++ more) IsVariables) := by
  funext ts bindings
  refine propext ⟨?_, ?_⟩
  · intro h
    cases h with
    | last h he => exact ⟨_, _, _, rfl, h, [_], [], _, rfl, ⟨rfl, he⟩, .inl ⟨rfl, rfl⟩⟩
    | more h he hr => exact ⟨_, _, _, rfl, h, [_], _, _, rfl, ⟨rfl, he⟩, .inr ⟨_, hr, rfl⟩⟩
  · rintro ⟨ls, _, group, rfl, h, _, rs, ending, rfl, ⟨rfl, he⟩,
      ⟨rfl, rfl⟩ | ⟨bindings, hr, rfl⟩⟩
    · exact .last h he
    · exact .more h he hr

theorem IsVariables.starts {ts : List Token} {bindings : List Binding} (h : IsVariables ts bindings) :
    ∃ t more, ts = t :: more ∧ t.kind = .name := by
  cases h with
  | last h he =>
    obtain ⟨t, more, rfl, ht⟩ := h.starts
    exact ⟨t, _, rfl, ht⟩
  | more h he hr =>
    obtain ⟨t, more, rfl, ht⟩ := h.starts
    exact ⟨t, _, rfl, ht⟩

theorem opens_parameters : Opens IsParameters [] := by
  obtain ⟨ts, group, h⟩ := opens_group
  exact ⟨ts, group, .last h⟩

theorem meets_parameters (c : Cursor) :
    (Binding.readParameters c).Meets c IsParameters [.mark .semicolon] := by
  induction c using Binding.readParameters.induct with
  | case1 c ih =>
    rw [Binding.readParameters, isParameters_eq_headed]
    refine Reading.meets_headed meets_group (fun group c₁ h₁ c₂ h₂ => ?_) opens_parameters
      (by decide) (by decide) (by decide) (by simp) (by simp) (by simp)
    exact ((ih c₁ h₁ c₂ h₂).map _).weaken _

theorem meets_variables (c : Cursor) : (Binding.readVariables c).Meets c IsVariables [.name] := by
  induction c using Binding.readVariables.induct with
  | case1 c ih =>
    rw [Binding.readVariables, isVariables_eq_seq]
    refine meets_group.bind (fun group c₁ h₁ => ?_) ?_ (fun _ _ _ _ _ _ => clear_none)
    · refine (Reading.meets_eat _ (by decide) (by decide)).bind (fun _ c₂ h₂ => ?_) ?_
        (fun _ _ _ _ _ _ => clear_none)
      · refine Reading.meets_optional _ (fun _ => ((ih c₁ h₁ c₂ h₂).map _).weaken _) ?_ (by simp)
          (List.Subset.refl _)
        rintro ts b ⟨bindings, h, -⟩
        exact h.starts
      · exact fun _ => ⟨[], group, .inl ⟨rfl, rfl⟩⟩
    · exact fun group => (opens_token _).seq_left fun _ => ⟨[], group, .inl ⟨rfl, rfl⟩⟩

theorem isSection_eq_optional : IsSection =
    Piece.optional [] (Piece.seq (Piece.token (.keyword .var)) fun _ => IsVariables) := by
  funext ts bindings
  refine propext ⟨?_, ?_⟩
  · intro h
    cases h with
    | none => exact .inl ⟨rfl, rfl⟩
    | some ho h => exact .inr ⟨[_], _, _, rfl, ⟨rfl, ho⟩, h⟩
  · rintro (⟨rfl, rfl⟩ | ⟨_, rs, opening, rfl, ⟨rfl, ho⟩, h⟩)
    · exact .none
    · exact .some ho h

theorem isParameterList_eq_optional : IsParameterList =
    Piece.optional [] (Piece.seq (Piece.token (.mark .leftParen)) fun _ =>
      Piece.seq IsParameters fun parameters =>
        Piece.map (fun _ => parameters) (Piece.token (.mark .rightParen))) := by
  funext ts bindings
  refine propext ⟨?_, ?_⟩
  · intro h
    cases h with
    | none => exact .inl ⟨rfl, rfl⟩
    | some ho h hc =>
      exact .inr ⟨[_], _, _, rfl, ⟨rfl, ho⟩, _, [_], _, rfl, h, _, ⟨rfl, hc⟩, rfl⟩
  · rintro (⟨rfl, rfl⟩ | ⟨_, _, opening, rfl, ⟨rfl, ho⟩, ts, _, bindings, rfl, h, closing,
      ⟨rfl, hc⟩, rfl⟩)
    · exact .none
    · exact .some ho h hc

theorem opens_section : Opens IsSection [] :=
  ⟨[], _, .none⟩

theorem opens_parameterList : Opens IsParameterList [] :=
  ⟨[], _, .none⟩

theorem meets_section : (Binding.readSection c).Meets c IsSection [.keyword .var, .name] := by
  have hvariables : Opens IsVariables [] := by
    rw [isVariables_eq_seq]
    exact opens_group.seq_left fun group => (opens_token _).seq_left fun _ =>
      ⟨[], group, .inl ⟨rfl, rfl⟩⟩
  unfold Binding.readSection
  rw [isSection_eq_optional]
  refine Reading.meets_optional [.name] (fun _ => ?_) ?_ (by simp) (by simp)
  · exact (Reading.meets_eat _ (by decide) (by decide)).bind
      (fun _ c₁ h₁ => (meets_variables c₁).weaken _) (fun _ => hvariables)
      (fun _ _ _ _ _ _ => clear_none)
  · rintro ts b ⟨_, rs, opening, rfl, ⟨rfl, ho⟩, -⟩
    exact ⟨opening, rs, rfl, ho⟩

theorem meets_parameterList :
    (Binding.readParameterList c).Meets c IsParameterList [.mark .leftParen] := by
  have close : ∀ parameters : List Binding,
      Opens (Piece.map (fun _ => parameters) (Piece.token (.mark .rightParen))) [] :=
    fun parameters => (opens_token _).map _
  unfold Binding.readParameterList
  rw [isParameterList_eq_optional]
  refine Reading.meets_optional [] (fun _ => ?_) ?_ (by simp) (by simp)
  · refine (Reading.meets_eat _ (by decide) (by decide)).bind (fun _ c₁ h₁ => ?_)
      (fun _ => opens_parameters.seq_left close) (fun _ _ _ _ _ _ => clear_none)
    refine (meets_parameters c₁).bind (fun parameters c₂ h₂ =>
      ((Reading.meets_eat _ (by decide) (by decide)).map _).weaken _) close ?_
    rintro parameters rs bindings z ⟨t, ⟨rfl, ht⟩, rfl⟩ -
    simp [ht]
  · rintro ts b ⟨_, rs, opening, rfl, ⟨rfl, ho⟩, -⟩
    exact ⟨opening, rs, rfl, ho⟩

/-! ## Blocks and programs -/

section Rules

variable {valued : Token → Value → Prop}

theorem IsProcedure.starts {ts : List Token} {d : Declaration} (h : IsProcedure valued ts d) :
    ∃ t more, ts = t :: more ∧ t.kind = .keyword .procedure := by
  cases h with
  | parts ho hn hp hs hb => exact ⟨_, _, rfl, ho⟩

theorem isBlock_eq_seq : IsBlock valued =
    Piece.seq IsSection fun bindings => Piece.seq (IsProcedures valued) fun procedures =>
      Piece.map (fun body => ⟨bindings.map .variable ++ procedures, body⟩) (IsCompound valued) := by
  funext ts block
  refine propext ⟨?_, ?_⟩
  · intro h
    cases h with
    | parts hv hp hb => exact ⟨_, _, _, List.append_assoc _ _ _, hv, _, _, _, rfl, hp, _, hb, rfl⟩
  · rintro ⟨vs, _, bindings, rfl, hv, ps, bs, procedures, rfl, hp, body, hb, rfl⟩
    rw [← List.append_assoc]
    exact .parts hv hp hb

/-- Procedures are a first one with its semicolon, and the others, if the word stands there. -/
theorem isProcedures_eq_optional : IsProcedures valued =
    Piece.optional [] (Piece.seq (IsProcedure valued) fun first =>
      Piece.seq (Piece.token (.mark .semicolon)) fun _ =>
        Piece.map (fun more => first :: more) (IsProcedures valued)) := by
  funext ts procedures
  refine propext ⟨?_, ?_⟩
  · intro h
    cases h with
    | none => exact .inl ⟨rfl, rfl⟩
    | more h he hr => exact .inr ⟨_, _, _, rfl, h, [_], _, _, rfl, ⟨rfl, he⟩, _, hr, rfl⟩
  · rintro (⟨rfl, rfl⟩ | ⟨ls, _, first, rfl, h, _, rs, ending, rfl, ⟨rfl, he⟩, procedures, hr, rfl⟩)
    · exact .none
    · exact .more h he hr

theorem isProcedure_eq_seq : IsProcedure valued =
    Piece.seq (Piece.token (.keyword .procedure)) fun opening =>
      Piece.seq declaredName fun name => Piece.seq IsParameterList fun parameters =>
        Piece.seq (Piece.token (.mark .semicolon)) fun _ =>
          Piece.map (fun block => .procedure name.text opening.line parameters block.declarations
            block.body) (IsBlock valued) := by
  funext ts d
  refine propext ⟨?_, ?_⟩
  · intro h
    cases h with
    | parts ho hn hp hs hb =>
      exact ⟨[_], _, _, rfl, ⟨rfl, ho⟩, [_], _, _, rfl, ⟨_, ⟨rfl, hn⟩, rfl⟩, _, _, _, rfl, hp, [_], _,
        _, rfl, ⟨rfl, hs⟩, _, hb, rfl⟩
  · rintro ⟨_, _, opening, rfl, ⟨rfl, ho⟩, _, _, _, rfl, ⟨name, ⟨rfl, hn⟩, rfl⟩, ps, _, parameters, rfl,
      hp, _, bs, separator, rfl, ⟨rfl, hs⟩, block, hb, rfl⟩
    exact .parts ho hn hp hs hb

theorem isProgram_eq_seq : IsProgram valued =
    Piece.seq (Piece.token (.keyword .program)) fun _ =>
      Piece.seq declaredName fun name => Piece.seq (Piece.token (.mark .semicolon)) fun _ =>
        Piece.seq (IsBlock valued) fun block =>
          Piece.map (fun _ => ⟨name.text, block⟩) (Piece.token (.mark .dot)) := by
  funext ts p
  refine propext ⟨?_, ?_⟩
  · rintro ⟨ho, hn, hs, hb, hp⟩
    exact ⟨[_], _, _, rfl, ⟨rfl, ho⟩, [_], _, _, rfl, ⟨_, ⟨rfl, hn⟩, rfl⟩, [_], _, _, rfl, ⟨rfl, hs⟩, _,
      [_], _, rfl, hb, _, ⟨rfl, hp⟩, rfl⟩
  · rintro ⟨_, _, opening, rfl, ⟨rfl, ho⟩, _, _, _, rfl, ⟨name, ⟨rfl, hn⟩, rfl⟩, _, _, separator, rfl,
      ⟨rfl, hs⟩, bs, _, block, rfl, hb, point, ⟨rfl, hp⟩, rfl⟩
    exact .parts ho hn hs hb hp

theorem opens_procedures : Opens (IsProcedures valued) [] :=
  ⟨[], _, .none⟩

theorem opens_block : Opens (IsBlock valued) [] := by
  rw [isBlock_eq_seq]
  exact opens_section.seq_left fun _ => opens_procedures.seq_left fun _ => opens_compound.map _

end Rules

/-- The readers of blocks, of lists of procedures and of procedures meet the grammar. -/
theorem meets_blocks :
    (∀ c, (Block.read c).Meets c (IsBlock Numbered) []) ∧
    (∀ c, (Declaration.readProcedures c).Meets c (IsProcedures Numbered) [.keyword .procedure]) ∧
    (∀ c, (Declaration.readProcedure c).Meets c (IsProcedure Numbered) []) := by
  have starts : ∀ (ts : List Token) (procedures : List Declaration),
      Piece.seq (IsProcedure Numbered) (fun first =>
        Piece.seq (Piece.token (.mark .semicolon)) fun _ =>
          Piece.map (fun more => first :: more) (IsProcedures Numbered)) ts procedures →
        ∃ t more, ts = t :: more ∧ t.kind = .keyword .procedure := by
    rintro ts procedures ⟨ls, rs, first, rfl, h, -⟩
    obtain ⟨t, more, rfl, ht⟩ := h.starts
    exact ⟨t, more ++ rs, rfl, ht⟩
  refine Block.read.mutual_induct _ _ _ ?_ ?_ ?_ ?_
  · -- a block
    intro c ih
    rw [Block.read, isBlock_eq_seq]
    refine meets_section.bind (fun bindings c₁ h₁ => ?_)
      (fun _ => opens_procedures.seq_left fun _ => opens_compound.map _) ?_
    · refine (ih c₁ h₁).bind (fun procedures c₂ h₂ => ((meets_statements.1 c₂).map _).weaken _)
        (fun _ => opens_compound.map _) ?_
      rintro procedures rs block z ⟨body, h, rfl⟩ -
      obtain ⟨t, more, rfl, ht⟩ := h.starts
      simp [ht]
    · rintro bindings rs block z ⟨ps, bs, procedures, rfl, hp, body, hb, rfl⟩ -
      obtain ⟨t, more, rfl, ht⟩ := hb.starts
      rw [isProcedures_eq_optional] at hp
      rcases hp with ⟨rfl, -⟩ | hp
      · simp [ht]
      · obtain ⟨t', more', rfl, ht'⟩ := starts _ _ hp
        simp [ht']
  · -- procedures, of which there is one
    intro c hc hfirst hrest
    rw [Declaration.readProcedures, isProcedures_eq_optional]
    refine Reading.meets_optional [.keyword .procedure] (fun _ => ?_) starts (by simp)
      (by simp)
    refine hfirst.bind (fun first c₁ h₁ => ?_)
      (fun _ => (opens_token _).seq_left fun _ => opens_procedures.map _)
      (fun _ _ _ _ _ _ => clear_none)
    exact (Reading.meets_eat _ (by decide) (by decide)).bind
      (fun _ c₂ h₂ => ((hrest c₁ h₁ c₂ h₂).map _).weaken _) (fun _ => opens_procedures.map _)
      (fun _ _ _ _ _ _ => clear_none)
  · -- no procedures
    intro c hc
    rw [Declaration.readProcedures, isProcedures_eq_optional]
    refine Reading.meets_optional [.keyword .procedure] (fun h => ?_) starts (by simp)
      (by simp)
    exact absurd (by simpa [Cursor.isAt] using h) hc
  · -- a procedure
    intro c ih
    rw [Declaration.readProcedure, isProcedure_eq_seq]
    have opens : ∀ (opening : Token) (name : Name) (parameters : List Binding), Opens
        (Piece.seq (Piece.token (.mark .semicolon)) fun _ =>
          Piece.map (fun block : Block => Declaration.procedure name.text opening.line parameters
            block.declarations block.body) (IsBlock Numbered)) [] :=
      fun _ _ _ => (opens_token _).seq_left fun _ => opens_block.map _
    refine (Reading.meets_eat _ (by decide) (by decide)).bind (fun opening c₁ h₁ => ?_)
      (fun opening => opens_declaredName.seq_left fun name => opens_parameterList.seq_left
        fun parameters => opens opening name parameters) (fun _ _ _ _ _ _ => clear_none)
    refine meets_readName.bind (fun name c₂ h₂ => ?_)
      (fun name => opens_parameterList.seq_left fun parameters => opens opening name parameters)
      (fun _ _ _ _ _ _ => clear_none)
    refine meets_parameterList.bind (fun parameters c₃ h₃ => ?_)
      (fun parameters => opens opening name parameters) ?_
    · exact (Reading.meets_eat _ (by decide) (by decide)).bind
        (fun _ c₄ h₄ => ((ih c₁ h₁ c₂ h₂ c₃ h₃ c₄ h₄).map _).weaken _) (fun _ => opens_block.map _)
        (fun _ _ _ _ _ _ => clear_none)
    · rintro parameters rs d z ⟨_, bs, separator, rfl, ⟨rfl, hs⟩, -⟩ -
      simp [hs]

/-- Programs are read as the grammar says. -/
theorem meets_program (c : Cursor) : (Program.read c).Meets c (IsProgram Numbered) [] := by
  have close : ∀ (name : Name) (block : Block),
      Opens (Piece.map (fun _ => Program.mk name.text block) (Piece.token (.mark .dot))) [] :=
    fun _ _ => (opens_token _).map _
  unfold Program.read
  rw [isProgram_eq_seq]
  refine (Reading.meets_eat _ (by decide) (by decide)).bind (fun _ c₁ h₁ => ?_)
    (fun _ => opens_declaredName.seq_left fun name => (opens_token _).seq_left fun _ =>
      opens_block.seq_left (close name)) (fun _ _ _ _ _ _ => clear_none)
  refine meets_readName.bind (fun name c₂ h₂ => ?_)
    (fun name => (opens_token _).seq_left fun _ => opens_block.seq_left (close name))
    (fun _ _ _ _ _ _ => clear_none)
  refine (Reading.meets_eat _ (by decide) (by decide)).bind (fun _ c₃ h₃ => ?_)
    (fun _ => opens_block.seq_left (close name)) (fun _ _ _ _ _ _ => clear_none)
  exact (meets_blocks.1 c₃).bind
    (fun block c₄ h₄ => ((Reading.meets_eat _ (by decide) (by decide)).map _).weaken _) (close name)
    (fun _ _ _ _ _ _ => clear_none)

end PocketPascal.Grammar
