import PocketPascal.Proofs.Evaluation.Faults
import PocketPascal.Proofs.Scope.Actions

/-!
# What stands behind a tree

Whatever the analysis and the evaluation ask about a program can be traced back to its tokens: every
name that is used stands among them, every type that is named, and every operator; a variable is
declared in a section of variables, a parameter in the list behind the name of its procedure, and a
procedure by the word that opens it, directly in front of its name.
-/

namespace PocketPascal

namespace Grammar

open Analysis

/-- The name of a type stands among the tokens. -/
def TypeWritten (ts : List Token) (type : Name) : Prop :=
  ∃ t ∈ ts, TypeWord t.kind ∧ type = ⟨t.text, t.line⟩

/-- The tokens declare a symbol on a line. -/
inductive DeclaresOn (ts : List Token) : Symbol → Nat → Prop where
  /-- A variable, in a section of variables. -/
  | «variable» {vs : List Token} {bindings : List Binding} {b : Binding} (part : vs <:+: ts)
      (derived : IsSection vs bindings) (mem : b ∈ bindings) (name : Written vs b.name)
      (type : TypeWritten vs b.type) : DeclaresOn ts b.symbol b.name.line
  /-- A parameter, in the list behind the name of a procedure. -/
  | parameter {opening procedure : Token} {vs : List Token} {bindings : List Binding} {b : Binding}
      (part : opening :: procedure :: vs <:+: ts) (ho : opening.kind = .keyword .procedure)
      (hp : procedure.kind = .name) (derived : IsParameterList vs bindings) (mem : b ∈ bindings)
      (name : Written vs b.name) (type : TypeWritten vs b.type) : DeclaresOn ts b.symbol b.name.line
  /-- A procedure, by the word that opens it. -/
  | procedure {opening name : Token} {parameters : List Parameter}
      (part : [opening, name] <:+: ts) (ho : opening.kind = .keyword .procedure)
      (hn : name.kind = .name) : DeclaresOn ts ⟨name.text, .procedure parameters⟩ opening.line

/-- What an action asks about stands among the tokens. -/
def Backed (ts : List Token) : Action → Prop
  | .checkType _ type => TypeWritten ts type
  | .define _ symbol line => DeclaresOn ts symbol line
  | .checkName _ name => Written ts name
  | .enterProgram _ => True
  | .enterProcedure _ _ => True
  | .leave _ => True

section

variable {us vs ts : List Token} {n : Name} {symbol : Symbol} {line : Nat} {a : Action}

theorem TypeWritten.mono (h : TypeWritten us n) (hs : us ⊆ ts) : TypeWritten ts n := by
  obtain ⟨t, ht, hn⟩ := h
  exact ⟨t, hs ht, hn⟩

theorem DeclaresOn.mono (h : DeclaresOn us symbol line) (hs : us <:+: ts) :
    DeclaresOn ts symbol line := by
  cases h with
  | «variable» part derived mem name type =>
    exact .variable (part.trans hs) derived mem name type
  | parameter part ho hp derived mem name type =>
    exact .parameter (part.trans hs) ho hp derived mem name type
  | procedure part ho hn => exact .procedure (part.trans hs) ho hn

theorem Backed.mono (h : Backed us a) (hs : us <:+: ts) : Backed ts a := by
  cases a with
  | checkType index type => exact TypeWritten.mono h hs.subset
  | define index symbol line => exact DeclaresOn.mono h hs
  | checkName index name => exact Written.mono h hs.subset
  | enterProgram program => trivial
  | enterProcedure outer name => trivial
  | leave index => trivial

end

/-! ## Operators -/

section

variable {valued : Token → Value → Prop}

/-- The operator stands among the tokens. -/
def OperatorWritten (ts : List Token) (operator : Kind × Nat) : Prop :=
  ∃ t ∈ ts, t.kind = operator.1 ∧ t.line = operator.2

theorem OperatorWritten.mono {us ts : List Token} {operator : Kind × Nat}
    (h : OperatorWritten us operator) (hs : us ⊆ ts) : OperatorWritten ts operator := by
  obtain ⟨t, ht, hn⟩ := h
  exact ⟨t, hs ht, hn⟩

mutual

theorem IsExpr.operators : ∀ {ts : List Token} {e : Expr}, IsExpr valued ts e →
    ∀ x ∈ e.operators, OperatorWritten ts x
  | _, _, .term h, x, hx => h.operators x hx
  | _, _, .sum hl ht hr, x, hx => by
    rcases List.mem_append.1 hx with hx | hx
    · exact (hl.operators x hx).mono (by simp)
    · rcases List.mem_cons.1 hx with rfl | hx
      · exact ⟨_, by simp, (BinaryOperator.kind_of_ofSumKind? (sumSign_iff.1 ht)).symm, rfl⟩
      · exact (hr.operators x hx).mono (by simp)

theorem IsTerm.operators : ∀ {ts : List Token} {e : Expr}, IsTerm valued ts e →
    ∀ x ∈ e.operators, OperatorWritten ts x
  | _, _, .factor h, x, hx => h.operators x hx
  | _, _, .product hl ht hr, x, hx => by
    rcases List.mem_append.1 hx with hx | hx
    · exact (hl.operators x hx).mono (by simp)
    · rcases List.mem_cons.1 hx with rfl | hx
      · exact ⟨_, by simp, (BinaryOperator.kind_of_ofProductKind? (productSign_iff.1 ht)).symm, rfl⟩
      · exact (hr.operators x hx).mono (by simp)

theorem IsFactor.operators : ∀ {ts : List Token} {e : Expr}, IsFactor valued ts e →
    ∀ x ∈ e.operators, OperatorWritten ts x
  | _, _, .literal _ _, x, hx => absurd hx (by simp [Expr.operators])
  | _, _, .variable _, x, hx => absurd hx (by simp [Expr.operators])
  | _, _, .sign ht h, x, hx => by
    rcases List.mem_cons.1 hx with rfl | hx
    · exact ⟨_, List.mem_cons_self, (UnaryOperator.kind_of_ofKind? (prefixSign_iff.1 ht)).symm, rfl⟩
    · exact (h.operators x hx).mono (List.subset_cons_self _ _)
  | _, _, .parens _ h _, x, hx => (h.operators x hx).mono (by simp)

end

theorem IsCompound.operators {ts : List Token} {body : List Statement}
    (h : IsCompound valued ts body) :
    ∀ a ∈ Statement.assignmentsOfList body, ∀ x ∈ a.value.operators, OperatorWritten ts x := by
  intro a ha x hx
  obtain ⟨us, hs, he, -⟩ := h.assigns a ha
  exact (he.operators x hx).mono hs

end

/-! ## Declarations -/

theorem IsNames.written {ts : List Token} {names : List Name} (h : IsNames ts names) :
    ∀ n ∈ names, Written ts n := by
  induction h with
  | last ht =>
    intro n hn
    rw [List.mem_singleton.1 hn]
    exact written_head ht
  | more ht _ _ ih =>
    intro n hn
    rcases List.mem_cons.1 hn with rfl | hn
    · exact written_head ht
    · exact (ih n hn).mono (by simp)

/-- The name and the type of a binding stand among the tokens. -/
def BindingWritten (ts : List Token) (b : Binding) : Prop :=
  Written ts b.name ∧ TypeWritten ts b.type

theorem BindingWritten.mono {us ts : List Token} {b : Binding} (h : BindingWritten us b)
    (hs : us ⊆ ts) : BindingWritten ts b :=
  ⟨h.1.mono hs, h.2.mono hs⟩

/-- A declared symbol is that of a binding or that of a procedure, written among the tokens. -/
theorem DeclaresOn.written {ts : List Token} {symbol : Symbol} {line : Nat}
    (h : DeclaresOn ts symbol line) :
    (∃ b : Binding, symbol = b.symbol ∧ line = b.name.line ∧ BindingWritten ts b) ∨
      ∃ opening ∈ ts, ∃ name ∈ ts, ∃ parameters, name.kind = .name ∧
        symbol = ⟨name.text, .procedure parameters⟩ ∧ line = opening.line := by
  cases h with
  | «variable» part derived mem name type =>
    exact .inl ⟨_, rfl, rfl, name.mono part.subset, type.mono part.subset⟩
  | @parameter opening procedure vs _ _ part ho hp derived mem name type =>
    have hsub : vs ⊆ ts := fun t ht => part.subset (by simp [ht])
    exact .inl ⟨_, rfl, rfl, name.mono hsub, type.mono hsub⟩
  | @procedure opening name parameters part ho hn =>
    have hname : name ∈ ts := part.subset (by simp)
    exact .inr ⟨opening, part.subset List.mem_cons_self, name, hname, parameters, hn, rfl, rfl⟩

theorem IsGroup.written {ts : List Token} {group : List Binding} (h : IsGroup ts group) :
    ∀ b ∈ group, BindingWritten ts b := by
  cases h with
  | @typed ts names colon type h _ ht =>
    intro b hb
    obtain ⟨name, hname, rfl⟩ := List.mem_map.1 hb
    exact ⟨(h.written name hname).mono (by simp), type, by simp, ht, rfl⟩

theorem IsParameters.written {ts : List Token} {bindings : List Binding}
    (h : IsParameters ts bindings) : ∀ b ∈ bindings, BindingWritten ts b := by
  induction h with
  | last h => exact h.written
  | more h _ _ ih =>
    intro b hb
    rcases List.mem_append.1 hb with hb | hb
    · exact (h.written b hb).mono (by simp)
    · exact (ih b hb).mono (by simp)

theorem IsVariables.written {ts : List Token} {bindings : List Binding}
    (h : IsVariables ts bindings) : ∀ b ∈ bindings, BindingWritten ts b := by
  induction h with
  | last h _ =>
    intro b hb
    exact (h.written b hb).mono (by simp)
  | more h _ _ ih =>
    intro b hb
    rcases List.mem_append.1 hb with hb | hb
    · exact (h.written b hb).mono (by simp)
    · exact (ih b hb).mono (by simp)

theorem IsSection.written {ts : List Token} {bindings : List Binding} (h : IsSection ts bindings) :
    ∀ b ∈ bindings, BindingWritten ts b := by
  cases h with
  | none => simp
  | some _ h =>
    intro b hb
    exact (h.written b hb).mono (List.subset_cons_self _ _)

theorem IsParameterList.written {ts : List Token} {bindings : List Binding}
    (h : IsParameterList ts bindings) : ∀ b ∈ bindings, BindingWritten ts b := by
  cases h with
  | none => simp
  | some _ h _ =>
    intro b hb
    exact (h.written b hb).mono (by simp)

theorem backed_binding {ts : List Token} {b : Binding} {index : Nat} {a : Action}
    (hd : DeclaresOn ts b.symbol b.name.line) (ht : TypeWritten ts b.type)
    (ha : a ∈ bindingActions index b) : Backed ts a := by
  rcases List.mem_cons.1 ha with rfl | ha
  · exact ht
  · rw [List.mem_singleton.1 ha]
    exact hd

/-- The names of the body of a block stand among its tokens. -/
theorem IsBlock.backed_body {valued : Token → Value → Prop} {ts : List Token} {block : Block}
    (h : IsBlock valued ts block) (index : Nat) :
    ∀ a ∈ bodyActions index (Statement.assignmentsOfList block.body) ++ [.leave index],
      Backed ts a := by
  cases h with
  | @parts vs ps bs _ _ body _ _ hb =>
    intro a ha
    rcases List.mem_append.1 ha with ha | ha
    · obtain ⟨n, hn, rfl⟩ := List.mem_map.1 ha
      obtain ⟨assignment, hassignment, hn⟩ := List.mem_flatMap.1 hn
      have hwritten : Written bs n := hb.written assignment hassignment n hn
      exact hwritten.mono (List.subset_append_right _ _)
    · rw [List.mem_singleton.1 ha]
      trivial

theorem exists_of_mem_declarationsActions {ds : List Declaration} {outer next : Nat} {a : Action}
    (h : a ∈ declarationsActions outer next ds) :
    ∃ d ∈ ds, ∃ next', a ∈ declarationActions outer next' d := by
  induction ds generalizing next with
  | nil =>
    rw [declarationsActions] at h
    cases h
  | cons first more ih =>
    rw [declarationsActions] at h
    rcases List.mem_append.1 h with h | h
    · exact ⟨first, List.mem_cons_self, next, h⟩
    · obtain ⟨d, hd, next', ha⟩ := ih h
      exact ⟨d, List.mem_cons_of_mem _ hd, next', ha⟩

/-- What the actions for a declaration ask about stands among the tokens. -/
def DeclarationBacked (ts : List Token) (d : Declaration) : Prop :=
  ∀ outer next, ∀ a ∈ declarationActions outer next d, Backed ts a

theorem DeclarationBacked.mono {us ts : List Token} {d : Declaration} (h : DeclarationBacked us d)
    (hs : us <:+: ts) : DeclarationBacked ts d :=
  fun outer next a ha => (h outer next a ha).mono hs

theorem declarationBacked_variable {vs ts : List Token} {bindings : List Binding} {b : Binding}
    (h : IsSection vs bindings) (hs : vs <:+: ts) (hb : b ∈ bindings) :
    DeclarationBacked ts (.variable b) := by
  have hwritten : BindingWritten vs b := h.written b hb
  intro outer next a ha
  rw [declarationActions] at ha
  exact backed_binding (.variable hs h hb hwritten.1 hwritten.2) (hwritten.2.mono hs.subset) ha

section

variable {valued : Token → Value → Prop}

theorem declarationBacked_procedure {opening name separator : Token} {ps bs : List Token}
    {parameters : List Binding} {block : Block} (ho : opening.kind = .keyword .procedure)
    (hn : name.kind = .name) (hp : IsParameterList ps parameters) (h : IsBlock valued bs block)
    (hb : ∀ d ∈ block.declarations, DeclarationBacked bs d) :
    DeclarationBacked (opening :: name :: ps ++ separator :: bs)
      (.procedure name.text opening.line parameters block.declarations block.body) := by
  have hlist : opening :: name :: ps <:+: opening :: name :: ps ++ separator :: bs :=
    ⟨[], separator :: bs, rfl⟩
  have hblock : bs <:+: opening :: name :: ps ++ separator :: bs :=
    ⟨opening :: name :: ps ++ [separator], [], by simp⟩
  intro outer next a ha
  rw [declarationActions_procedure] at ha
  -- the procedure itself, its parameters, its declarations, and its body
  rcases List.mem_append.1 ha with ha | ha
  · rcases List.mem_cons.1 ha with rfl | ha
    · exact DeclaresOn.procedure ⟨[], ps ++ separator :: bs, rfl⟩ ho hn
    · rw [List.mem_singleton.1 ha]
      trivial
  rcases List.mem_append.1 ha with ha | ha
  · obtain ⟨b, hmem, ha⟩ := List.mem_flatMap.1 ha
    have hwritten : BindingWritten ps b := hp.written b hmem
    have hsub : ps ⊆ opening :: name :: ps ++ separator :: bs := fun t ht => by simp [ht]
    exact backed_binding (.parameter hlist ho hn hp hmem hwritten.1 hwritten.2)
      (hwritten.2.mono hsub) ha
  rcases List.mem_append.1 ha with ha | ha
  · obtain ⟨d, hd, next', ha⟩ := exists_of_mem_declarationsActions ha
    exact (hb d hd next next' a ha).mono hblock
  · exact (h.backed_body next a ha).mono hblock

mutual

theorem IsBlock.backed : ∀ {ts : List Token} {block : Block}, IsBlock valued ts block →
    ∀ d ∈ block.declarations, DeclarationBacked ts d
  | _, _, @IsBlock.parts _ vs ps bs _ _ _ hv hp _ => by
    intro d hd
    rcases List.mem_append.1 hd with hd | hd
    · obtain ⟨b, hb, rfl⟩ := List.mem_map.1 hd
      exact declarationBacked_variable hv ⟨[], ps ++ bs, by simp⟩ hb
    · exact (hp.backed d hd).mono ⟨vs, bs, rfl⟩

theorem IsProcedures.backed : ∀ {ts : List Token} {procedures : List Declaration},
    IsProcedures valued ts procedures → ∀ d ∈ procedures, DeclarationBacked ts d
  | _, _, .none => by simp
  | _, _, .more h _ hr => by
    intro d hd
    rcases List.mem_cons.1 hd with hd | hd
    · rw [hd]
      exact h.backed.mono (List.prefix_append _ _).isInfix
    · exact (hr.backed d hd).mono (List.suffix_append_of_suffix (List.suffix_cons _ _)).isInfix

theorem IsProcedure.backed : ∀ {ts : List Token} {d : Declaration}, IsProcedure valued ts d →
    DeclarationBacked ts d
  | _, _, .parts ho hn hp _ hb => declarationBacked_procedure ho hn hp hb hb.backed

end

/-- What the actions of a program ask about stands among its tokens. -/
theorem IsProgram.backed {ts : List Token} {p : Program} (h : IsProgram valued ts p) :
    ∀ a ∈ programActions p, Backed ts a := by
  cases h with
  | @parts opening name separator point bs block _ _ _ hb _ =>
    have hblock : bs <:+: opening :: name :: separator :: bs ++ [point] :=
      ⟨[opening, name, separator], [point], rfl⟩
    intro a ha
    rcases List.mem_cons.1 ha with rfl | ha
    · trivial
    rcases List.mem_append.1 ha with ha | ha
    · obtain ⟨d, hd, next, ha⟩ := exists_of_mem_declarationsActions ha
      exact (hb.backed d hd 0 next a ha).mono hblock
    · exact (hb.backed_body 0 a ha).mono hblock

/-- The operators of a program outside of its procedures stand among its tokens. -/
theorem IsProgram.operators {ts : List Token} {p : Program} (h : IsProgram valued ts p) :
    ∀ a ∈ p.assignments, ∀ x ∈ a.value.operators, OperatorWritten ts x := by
  cases h with
  | parts ho hn hs hb hp =>
    cases hb with
    | parts hv hps hbody =>
      intro a ha x hx
      exact (hbody.operators a ha x hx).mono fun t ht => by simp [ht]

end

end Grammar

end PocketPascal
