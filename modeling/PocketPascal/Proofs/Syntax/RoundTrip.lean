import PocketPascal.Proofs.Syntax.Acceptance
import PocketPascal.Proofs.Syntax.Rendering

/-!
# Writing a program and reading it

The words of declarations, blocks and programs are read as the trees they were written for. The main
statement is about texts: if the words of a writable program are spaced out, whatever spaces and line
breaks stand between them, the text is read as the program, up to the lines.
-/

namespace PocketPascal

open Lexeme

/-- The block without its lines. -/
def Block.unplaced (b : Block) : Block :=
  ⟨Declaration.unplacedList b.declarations, Statement.unplacedList b.body⟩

theorem Declaration.unplacedList_eq_map (ds : List Declaration) :
    Declaration.unplacedList ds = ds.map Declaration.unplaced := by
  induction ds with
  | nil => rfl
  | cons first more ih => rw [Declaration.unplacedList, ih, List.map_cons]

/-- Declarations that list the variables first are variables, followed by procedures. -/
theorem Declaration.exists_variables_append {ds : List Declaration}
    (h : Declaration.variablesFirst ds) : ∃ (bs : List Binding) (ps : List Declaration),
      ds = bs.map .variable ++ ps ∧ ∀ d ∈ ps, d.isVariable = false := by
  induction ds with
  | nil => exact ⟨[], [], rfl, by simp⟩
  | cons first more ih =>
    cases first with
    | «variable» b =>
      obtain ⟨bs, ps, rfl, hps⟩ := ih h
      exact ⟨b :: bs, ps, rfl, hps⟩
    | procedure name line parameters declarations body =>
      refine ⟨[], _, rfl, fun d hd => ?_⟩
      simp only [variablesFirst, isVariable, Bool.false_eq_true, not_false_eq_true,
        List.dropWhile_cons_of_neg, List.all_eq_true, Bool.not_eq_true'] at h
      exact h d hd

namespace Grammar

/-! ## Bindings -/

theorem conveys_binding {b : Binding} (h : b.isWritable) :
    Conveys b.words (Restores IsGroup (List.map Binding.unplaced) [b]) := by
  simp only [Binding.isWritable, Bool.and_eq_true, Bool.or_eq_true, beq_iff_eq] at h
  have htype : ∃ word : Keyword, b.type.text = word.text ∧ TypeWord (.keyword word) := by
    rcases h.2 with ht | ht
    · exact ⟨.integer, ht, .integer⟩
    · exact ⟨.real, ht, .real⟩
  obtain ⟨word, hw, hword⟩ := htype
  rw [Binding.words, hw]
  refine (Conveys.cons (.name h.1) (.cons (.mark .colon) (.keyword word))).imp ?_
  rintro _ ⟨_, _, rfl, ⟨t, rfl, hk, ht⟩, _, _, rfl, ⟨colon, rfl, hc, -⟩, type, rfl, htk, htt⟩
  refine ⟨_, .typed (.last hk) hc (by rwa [htk]), ?_⟩
  simp [Binding.unplaced, Name.unplaced, ht, htt, hw]

/-- The words of bindings with semicolons between them are read as parameters. -/
theorem conveys_parameters {first : Binding} {more : List Binding}
    (h : ∀ b ∈ first :: more, b.isWritable) :
    Conveys (first.words ++ more.flatMap fun b => Mark.semicolon.text :: b.words)
      (Restores IsParameters (List.map Binding.unplaced) (first :: more)) := by
  have hfirst := conveys_binding (h first List.mem_cons_self)
  induction more generalizing first with
  | nil =>
    rw [List.flatMap_nil, List.append_nil]
    refine hfirst.imp ?_
    rintro ts ⟨group, hg, hu⟩
    exact ⟨group, .last hg, hu⟩
  | cons second more ih =>
    have hsecond := conveys_binding (h second (by simp))
    have hrest := ih (fun b hb => h b (List.mem_cons_of_mem first hb)) hsecond
    rw [List.flatMap_cons, List.cons_append]
    refine (hfirst.append (.cons (.mark .semicolon) hrest)).imp ?_
    rintro _ ⟨ts, _, rfl, ⟨group, hg, hu⟩, _, rest, rfl, ⟨t, rfl, hk, -⟩, bindings, hb, hub⟩
    refine ⟨group ++ bindings, .more hg hk hb, ?_⟩
    rw [List.map_append, hu, hub]
    rfl

theorem conveys_parameterList {bs : List Binding} (h : ∀ b ∈ bs, b.isWritable) :
    Conveys (Binding.wordsOfParameters bs)
      (Restores IsParameterList (List.map Binding.unplaced) bs) := by
  cases bs with
  | nil =>
    refine Conveys.nil.imp ?_
    rintro _ rfl
    exact ⟨[], .none, rfl⟩
  | cons first more =>
    rw [Binding.wordsOfParameters]
    refine (Conveys.cons (.mark .leftParen)
      ((conveys_parameters h).append (.mark .rightParen))).imp ?_
    rintro _ ⟨_, _, rfl, ⟨opening, rfl, ho, -⟩, ts, _, rfl, ⟨bindings, hb, hu⟩, closing, rfl, hc, -⟩
    exact ⟨bindings, .some ho hb hc, hu⟩

/-! ## Declarations -/

/-- The tokens are written for the declaration, up to lines, with the semicolon after it. -/
def Declares : Declaration → List Token → Prop
  | .variable b, ts => ∃ vs ending, ts = vs ++ [ending] ∧ ending.kind = .mark .semicolon ∧
      Restores IsGroup (List.map Binding.unplaced) [b] vs
  | .procedure name line parameters declarations body, ts =>
      ∃ ps ending, ts = ps ++ [ending] ∧ ending.kind = .mark .semicolon ∧
        Restores (IsProcedure Numbered) Declaration.unplaced
          (.procedure name line parameters declarations body) ps

theorem conveys_procedures {ds : List Declaration} (hd : ∀ d ∈ ds, d.isVariable = false)
    (h : ∀ d ∈ ds, Conveys d.words (Declares d)) :
    Conveys (Declaration.wordsOfList ds)
      (Restores (IsProcedures Numbered) Declaration.unplacedList ds) := by
  induction ds with
  | nil =>
    refine Conveys.nil.imp ?_
    rintro _ rfl
    exact ⟨[], .none, rfl⟩
  | cons first more ih =>
    have hrest := ih (fun d hm => hd d (List.mem_cons_of_mem first hm))
      (fun d hm => h d (List.mem_cons_of_mem first hm))
    have hfirst := h first List.mem_cons_self
    cases first with
    | «variable» b => cases hd _ List.mem_cons_self
    | procedure name line parameters declarations body =>
      rw [Declaration.wordsOfList]
      refine (hfirst.append hrest).imp ?_
      rintro _ ⟨_, rest, rfl, ⟨ts, ending, rfl, he, first', hf, huf⟩, rest', hr, hur⟩
      refine ⟨first' :: rest', ?_, by rw [Declaration.unplacedList, huf, hur]; rfl⟩
      rw [List.append_assoc]
      exact .more hf he hr

/-- The words of variables, of which there is one, and of procedures after them are read as the
variables and the procedures. -/
theorem conveys_variables {first : Binding} {more : List Binding} {ps : List Declaration}
    (h : ∀ b ∈ first :: more, Conveys (Declaration.variable b).words (Declares (.variable b)))
    (hp : Conveys (Declaration.wordsOfList ps)
      (Restores (IsProcedures Numbered) Declaration.unplacedList ps)) :
    Conveys (Declaration.wordsOfList ((first :: more).map .variable ++ ps)) fun ts =>
      ∃ vs rest, ts = vs ++ rest ∧
        Restores IsVariables (List.map Binding.unplaced) (first :: more) vs ∧
        Restores (IsProcedures Numbered) Declaration.unplacedList ps rest := by
  have hfirst := h first List.mem_cons_self
  rw [List.map_cons, List.cons_append, Declaration.wordsOfList]
  induction more generalizing first with
  | nil =>
    refine (hfirst.append hp).imp ?_
    rintro _ ⟨_, rest, rfl, ⟨ts, ending, rfl, he, group, hg, hu⟩, hr⟩
    exact ⟨_, rest, rfl, ⟨group, .last hg he, hu⟩, hr⟩
  | cons second more ih =>
    have hsecond := h second (by simp)
    have hrest := ih (fun b hb => h b (List.mem_cons_of_mem first hb)) hsecond
    rw [List.map_cons, List.cons_append, Declaration.wordsOfList]
    refine (hfirst.append hrest).imp ?_
    rintro _ ⟨_, _, rfl, ⟨ts, ending, rfl, he, group, hg, hu⟩, vs, rest, rfl, ⟨bs, hb, hub⟩, hr⟩
    refine ⟨ts ++ ending :: vs, rest, by simp, ⟨group ++ bs, .more hg he hb, ?_⟩, hr⟩
    rw [List.map_append, hu, hub]
    rfl

/-- The words of the declarations of a block are read as its variables and procedures. -/
theorem conveys_section {ds : List Declaration} (hd : Declaration.variablesFirst ds)
    (h : ∀ d ∈ ds, Conveys d.words (Declares d)) :
    Conveys (Declaration.wordsOfSection ds) fun ts =>
      ∃ vs ps bindings procedures, ts = vs ++ ps ∧ IsSection vs bindings ∧
        IsProcedures Numbered ps procedures ∧
        Declaration.unplacedList (bindings.map .variable ++ procedures) =
          Declaration.unplacedList ds := by
  obtain ⟨bs, ps, rfl, hps⟩ := Declaration.exists_variables_append hd
  have hprocedures := conveys_procedures hps fun d hm => h d (List.mem_append_right _ hm)
  cases bs with
  | nil =>
    -- the word for variables is written only where a variable comes first
    have hwords : Declaration.wordsOfSection ps = Declaration.wordsOfList ps := by
      cases ps with
      | nil => rfl
      | cons first more =>
        rw [Declaration.wordsOfSection, hps first List.mem_cons_self]
        rfl
    rw [List.map_nil, List.nil_append, hwords]
    refine hprocedures.imp ?_
    rintro ts ⟨procedures, hp, hu⟩
    exact ⟨[], ts, [], procedures, rfl, .none, hp, hu⟩
  | cons first more =>
    have hvariables := conveys_variables
      (fun b hb => h (.variable b) (List.mem_append_left _ (List.mem_map_of_mem hb))) hprocedures
    refine (Conveys.cons (.keyword .var) hvariables).imp ?_
    rintro _ ⟨_, _, rfl, ⟨t, rfl, hk, -⟩, vs, rest, rfl, ⟨bs', hb, hub⟩, procedures, hp, hup⟩
    refine ⟨t :: vs, rest, bs', procedures, rfl, .some hk hb, hp, ?_⟩
    have hbindings : (bs'.map Declaration.variable).map Declaration.unplaced =
        ((first :: more).map Declaration.variable).map Declaration.unplaced := by
      have := congrArg (List.map Declaration.variable) hub
      simpa [Declaration.unplaced, Function.comp_def] using this
    rw [Declaration.unplacedList_eq_map, Declaration.unplacedList_eq_map] at hup ⊢
    rw [List.map_append, List.map_append, hbindings, hup]

theorem conveys_block {ds : List Declaration} {body : List Statement}
    (hd : Declaration.variablesFirst ds) (h : ∀ d ∈ ds, Conveys d.words (Declares d))
    (hb : (Statement.compound body).isWritable) :
    Conveys (Declaration.wordsOfSection ds ++ (Statement.compound body).words)
      (Restores (IsBlock Numbered) Block.unplaced ⟨ds, body⟩) := by
  rw [Statement.isWritable, Bool.and_eq_true, Bool.not_eq_true', List.isEmpty_eq_false_iff] at hb
  have hbody := conveys_compound (conveys_statements body hb.1 hb.2)
  refine ((conveys_section hd h).append hbody).imp ?_
  rintro _ ⟨_, bs, rfl, ⟨vs, ps, bindings, procedures, rfl, hv, hp, hu⟩, body', hb', hub⟩
  exact ⟨_, .parts hv hp hb', by rw [Block.unplaced, Block.unplaced, hu, hub]⟩

mutual

theorem conveys_declaration (d : Declaration) (h : d.isWritable) : Conveys d.words (Declares d) := by
  cases d with
  | «variable» b =>
    rw [Declaration.words]
    refine ((conveys_binding h).append (.mark .semicolon)).imp ?_
    rintro _ ⟨vs, _, rfl, hb, ending, rfl, he, -⟩
    exact ⟨vs, ending, rfl, he, hb⟩
  | procedure name line parameters declarations body =>
    simp only [Declaration.isWritable, Bool.and_eq_true, List.all_eq_true] at h
    obtain ⟨⟨⟨⟨hname, hparameters⟩, hfirst⟩, hdeclarations⟩, hbody⟩ := h
    have hblock := conveys_block hfirst (conveys_each declarations hdeclarations) hbody
    have hwords : (Declaration.procedure name line parameters declarations body).words =
        Keyword.procedure.text :: name :: (Binding.wordsOfParameters parameters ++
          Mark.semicolon.text :: ((Declaration.wordsOfSection declarations ++
            (Statement.compound body).words) ++ [Mark.semicolon.text])) := by
      simp [Declaration.words]
    rw [hwords]
    -- part by part: word, name, parameters, semicolon, block, semicolon
    refine (Conveys.cons (.keyword .procedure) (.cons (.name hname)
      ((conveys_parameterList hparameters).append (.cons (.mark .semicolon)
        (hblock.append (.mark .semicolon)))))).imp ?_
    rintro _ ⟨_, _, rfl, ⟨opening, rfl, ho, -⟩, _, _, rfl, ⟨t, rfl, hk, ht⟩, ps, _, rfl,
      ⟨parameters', hp, hup⟩, _, _, rfl, ⟨separator, rfl, hs, -⟩, bs, _, rfl, ⟨block, hb, hub⟩,
      ending, rfl, he, -⟩
    refine ⟨opening :: t :: ps ++ separator :: bs, ending, by simp, he, _, .parts ho hk hp hs hb, ?_⟩
    obtain ⟨hud, hus⟩ := Block.mk.inj hub
    rw [Declaration.unplaced, Declaration.unplaced, ht, hup, hud, hus]

theorem conveys_each (ds : List Declaration) (h : Declaration.areWritable ds) :
    ∀ d ∈ ds, Conveys d.words (Declares d) := by
  cases ds with
  | nil => simp
  | cons first more =>
    rw [Declaration.areWritable, Bool.and_eq_true] at h
    intro d hd
    rcases List.mem_cons.1 hd with he | hd
    · rw [he]
      exact conveys_declaration first h.1
    · exact conveys_each more h.2 d hd

end

/-! ## Programs -/

theorem conveys_program {p : Program} (h : p.isWritable) :
    Conveys p.words (Restores (IsProgram Numbered) Program.unplaced p) := by
  simp only [Program.isWritable, Bool.and_eq_true] at h
  obtain ⟨⟨⟨hname, hfirst⟩, hdeclarations⟩, hbody⟩ := h
  have hblock := conveys_block hfirst (conveys_each _ hdeclarations) hbody
  rw [Program.words]
  refine (Conveys.cons (.keyword .program) (.cons (.name hname) (.cons (.mark .semicolon)
    (hblock.append (.mark .dot))))).imp ?_
  rintro _ ⟨_, _, rfl, ⟨opening, rfl, ho, -⟩, _, _, rfl, ⟨t, rfl, hk, ht⟩, _, _, rfl,
    ⟨separator, rfl, hs, -⟩, bs, _, rfl, ⟨block, hb, hub⟩, point, rfl, hp, -⟩
  refine ⟨_, .parts ho hk hs hb hp, ?_⟩
  obtain ⟨hud, hus⟩ := Block.mk.inj hub
  rw [Program.unplaced, Program.unplaced, ht, hud, hus]

/-- A writable program that is written with any spaces and line breaks between its words is read
again: the text is a program, with the same tree up to the lines. -/
theorem ofSource_of_spacedOut {p : Program} {source : String} (hp : p.isWritable)
    (ht : SpacedOut p.words source.toList) :
    ∃ q, Program.ofSource source = .ok q ∧ q.unplaced = p.unplaced := by
  have hconveys := conveys_program hp
  obtain ⟨⟨c, cs, hfront, hc⟩, hlast⟩ := ht.bare_ends hconveys.stand
  -- nothing is trimmed, so the scanner runs over the whole text
  have hrest : (Scanner.ofSource source).rest = source.toList := by
    refine Text.trim_eq_self (fun d hd => ?_) hlast
    rw [hfront] at hd
    cases hd
    exact hc
  obtain ⟨ts, line, hcompletes, hspells⟩ :=
    Scanner.completes_of_spacedOut ht hconveys.stand (Scanner.ofSource source) hrest
  obtain ⟨hheld, q, hq, hu⟩ := hconveys.derive ts hspells
  exact ⟨q, ofSource_eq_ok_iff_completes.2 ⟨ts, line, hcompletes, hheld, hq⟩, hu⟩

/-- The words with one space between any two. -/
def spaced : List String → List Char
  | [] => []
  | [last] => last.toList
  | first :: second :: more => first.toList ++ [' '] ++ spaced (second :: more)

theorem spacedOut_spaced (first : String) (more : List String) :
    SpacedOut (first :: more) (spaced (first :: more)) := by
  induction more generalizing first with
  | nil => exact .last first
  | cons second more ih => exact .more (by simp) (by simp [isDivider]) (ih second)

/-- A program with a parameter, a local variable, a sign in front of a sum, an operand in parentheses
on the right, and an empty statement. -/
def sample : Program :=
  let a : Name := ⟨"a", 0⟩
  let product : Expr := .binary .mul (.unary .minus (.binary .add (.variable a)
    (.literal (.integer 1) 0) 0) 0) (.binary .div (.variable a) (.literal (.integer 20) 0) 0) 0
  ⟨"main", ⟨[.procedure "q" 0 [⟨a, ⟨"INTEGER", 0⟩⟩] [.variable ⟨⟨"b2", 0⟩, ⟨"REAL", 0⟩⟩]
    [.assign ⟨"b2", 0⟩ product 0, .empty]], [.empty]⟩⟩

/-- The program as a text. -/
def sampleText : String :=
  "PROGRAM main ; PROCEDURE q ( a : INTEGER ) ; VAR b2 : REAL ; " ++
    "BEGIN b2 := - ( a + 1 ) * ( a DIV 20 ) ; END ; BEGIN END ."

theorem ofSource_of_spacedOut_sample :
    sample.isWritable ∧ SpacedOut sample.words sampleText.toList ∧
      ∃ q, Program.ofSource sampleText = .ok q ∧ q.unplaced = sample.unplaced := by
  have hwritable : sample.isWritable := by decide
  have hspaced : SpacedOut sample.words sampleText.toList := by
    have htext : sampleText.toList = spaced sample.words := by decide +kernel
    rw [htext]
    exact spacedOut_spaced _ _
  exact ⟨hwritable, hspaced, ofSource_of_spacedOut hwritable hspaced⟩

end Grammar

end PocketPascal
