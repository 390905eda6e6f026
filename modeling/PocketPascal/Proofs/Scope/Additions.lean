import PocketPascal.Proofs.Scope.Builtins
import PocketPascal.Proofs.Scope.Gained
import PocketPascal.Proofs.Scope.Nesting

/-!
# One more variable

A program that is accepted when later declarations win is still accepted if one of its blocks, the
outermost one or that of any procedure, declares one more variable at any place among its
declarations. The two analyses do the same, up to the two actions that declare the variable. From
there on their arenas differ in the name of the variable in the scope of the block at most. So
whatever the first analysis resolves, the second one resolves too, in the same scope or, if it is
the name of the variable, perhaps in that of the block.
-/

namespace PocketPascal

/-- The second list has the declarations of the first one, and the variable `b` in addition. The
declarations are those of the block `name` whose scope is on a level; the variable is declared in it
or in a procedure inside it, in the block `block` whose scope is on the level `depth`. -/
inductive Declaration.Gains (b : Binding) :
    String → Nat → List Declaration → List Declaration → String → Nat → Prop where
  /-- The variable is declared in front of the declarations. -/
  | here (name : String) (level : Nat) (ds : List Declaration) :
      Gains b name level ds (.variable b :: ds) name level
  /-- The variable is declared somewhere behind the first declaration. -/
  | later {name block : String} {level depth : Nat} {ds ds' : List Declaration}
      (first : Declaration) (more : Gains b name level ds ds' block depth) :
      Gains b name level (first :: ds) (first :: ds') block depth
  /-- The variable is declared inside the procedure that is declared first. -/
  | inside {procedure block : String} {level depth : Nat} {ds ds' : List Declaration}
      (name : String) (line : Nat) (parameters : List Binding) (body : List Statement)
      (more : List Declaration) (inner : Gains b procedure (level + 1) ds ds' block depth) :
      Gains b name level (.procedure procedure line parameters ds body :: more)
        (.procedure procedure line parameters ds' body :: more) block depth

/-- The second program is the first one with the variable `b` in addition, in the block `block` with
its scope on the level `depth`. -/
structure Program.Gains (b : Binding) (p p' : Program) (block : String) (depth : Nat) : Prop where
  /-- The programs have one name. -/
  name : p'.name = p.name
  /-- The outermost block of the second program has one more variable, or a procedure in it has. -/
  declarations : Declaration.Gains b Analysis.globalName 1 p.block.declarations
    p'.block.declarations block depth
  /-- The programs have one body. -/
  body : p'.block.body = p.block.body

/-- A used name is found again. Where it was found before stays, unless it is the name `x`: this may
be found in the scope `block` on the level `depth` instead. -/
structure Resolution.Moves (x block : String) (depth : Nat) (old new : Resolution) : Prop where
  /-- It is the same name. -/
  name : new.name = old.name
  /-- It is used on the same line. -/
  line : new.line = old.line
  /-- It is found in the same scope, or it is `x` and found in that of the block. -/
  place : new = old ∨ (old.name = x ∧ new.scope = block ∧ new.level = depth)

namespace Analysis

/-- The names that an action finds. -/
def Action.found (a : Action) (arena : Arena) : List Resolution :=
  State.resolutions ⟨arena, (a.events arena).toArray⟩

theorem resolutions_step (a : Action) (s : State) :
    (a.step s).resolutions = s.resolutions ++ a.found s.arena := by
  unfold Action.found State.resolutions Action.step
  rw [Array.toList_append, List.filterMap_append]

theorem found_checkName {arena : Arena} {index owner : Nat} {name : Name} {symbol : Symbol}
    {scope : Scope} (hr : arena.resolve? index name.text = some (owner, symbol))
    (hs : arena.get? owner = some scope) :
    (Action.checkName index name).found arena =
      [⟨name.text, name.line, scope.name, scope.level⟩] := by
  have hevents : (Action.checkName index name).events arena =
      [.resolve ⟨name.text, name.line, scope.name, scope.level⟩] := by
    rw [Action.events, hr, Option.bind_some, hs]
    rfl
  unfold Action.found
  rw [hevents]
  rfl

/-- Only the check of a used name finds one. -/
theorem found_eq_nil {a : Action} (ha : ∀ index name, a ≠ .checkName index name) (arena : Arena) :
    a.found arena = [] := by
  refine List.eq_nil_iff_forall_not_mem.2 ?_
  intro found hfound
  have hevent : .resolve found ∈ a.events arena := mem_resolutions_iff.1 hfound
  obtain ⟨index, owner, symbol, rfl, -⟩ := exists_of_mem_events hevent
  exact ha index _ rfl

/-! ## Two analyses side by side -/

section

variable {s t : State} {a : Action} {index depth : Nat} {x block : String}

theorem step_gained (h : s.arena.Gained t.arena index x) (hfits : a.Fits s.arena.size) :
    (a.step s).arena.Gained (a.step t).arena index x := by
  cases a with
  | enterProgram program =>
    have hnone : ∀ outer ∈ (none : Option Nat), outer < s.arena.size := by
      intro outer houter
      cases houter
    exact h.push hnone globalName 1
  | enterProcedure outer name =>
    have houter : ∀ i ∈ some outer, i < s.arena.size := by
      intro i hi
      cases hi
      exact hfits
    show (s.arena.push name _ (some outer)).Gained (t.arena.push name _ (some outer)) index x
    rw [h.elim_level outer]
    exact h.push houter name _
  | checkType i type => exact h
  | define i symbol line => exact h.define i symbol
  | checkName i name => exact h
  | leave i => exact h

/-- What the first analysis accepts the second one accepts too. -/
theorem refusal?_gained (h : s.arena.Gained t.arena index x) (hx : x ∉ builtinTypes)
    (hfits : a.Fits s.arena.size) (hrespects : a.Respects)
    (hok : a.refusal? .overwrite s.arena = none) : a.refusal? .overwrite t.arena = none := by
  cases a with
  | enterProgram program => rfl
  | enterProcedure outer name => rfl
  | checkType i type =>
    have hother : type.text ≠ x := by
      rintro rfl
      exact hx hrespects
    have hsame := h.resolve?_of_ne hfits hother
    rw [Action.refusal?] at hok ⊢
    rw [hsame]
    exact hok
  | define i symbol line => rfl
  | checkName i name =>
    rw [Action.refusal?] at hok ⊢
    split at hok
    · rename_i hfound
      obtain ⟨⟨owner, symbol⟩, hr⟩ := Option.isSome_iff_exists.1 hfound
      obtain ⟨owner', symbol', hr', -⟩ := h.resolve? hfits hr
      rw [hr']
      rfl
    · cases hok
  | leave i => rfl

/-- A used name is found by the second analysis if the first one finds it, and moves to the block at
most. -/
theorem found_gained (h : s.arena.Gained t.arena index x) (hblock : t.arena.Has index block depth)
    (hfits : a.Fits s.arena.size) (hok : a.refusal? .overwrite s.arena = none) :
    List.Forall₂ (Resolution.Moves x block depth) (a.found s.arena) (a.found t.arena) := by
  by_cases ha : ∃ i name, a = .checkName i name
  · obtain ⟨i, name, rfl⟩ := ha
    rw [Action.refusal?] at hok
    split at hok
    · rename_i hfound
      obtain ⟨⟨owner, symbol⟩, hr⟩ := Option.isSome_iff_exists.1 hfound
      obtain ⟨scope, hscope, -⟩ := Arena.lookup?_of_resolve? hr
      obtain ⟨owner', symbol', hr', howner⟩ := h.resolve? hfits hr
      rw [found_checkName hr hscope]
      rcases howner with rfl | ⟨hname, rfl⟩
      · obtain ⟨scope', hscope', hbecame⟩ := h.same owner' scope hscope
        rw [found_checkName hr' hscope', hbecame.name, hbecame.level]
        exact .cons ⟨rfl, rfl, .inl rfl⟩ .nil
      · obtain ⟨scope', hscope', hscopeName, hscopeLevel⟩ := hblock
        rw [found_checkName hr' hscope', hscopeName, hscopeLevel]
        exact .cons ⟨rfl, rfl, .inr ⟨hname, rfl, rfl⟩⟩ .nil
    · cases hok
  · have hother : ∀ i name, a ≠ .checkName i name := by
      intro i name hsame
      exact ha ⟨i, name, hsame⟩
    rw [found_eq_nil hother, found_eq_nil hother]
    exact .nil

theorem has_after (as : List Action) (h : s.arena.Has index block depth) :
    (s.after as).arena.Has index block depth := by
  obtain ⟨scope, hscope, rfl, rfl⟩ := h
  obtain ⟨scope', hscope', hbecame⟩ := became_after as hscope
  exact ⟨scope', hscope', hbecame.name, hbecame.level⟩

/-- Actions that the first analysis accepts are accepted by the second one, and what is found stays
or moves to the block. -/
theorem perform_gained {as : List Action} (h : s.arena.Gained t.arena index x)
    (hx : x ∉ builtinTypes) (hblock : t.arena.Has index block depth)
    (horder : InOrder s.arena.size as) (hrespects : ∀ a ∈ as, a.Respects)
    (hfound : List.Forall₂ (Resolution.Moves x block depth) s.resolutions t.resolutions)
    (hok : perform .overwrite as s = .ok () (s.after as)) :
    perform .overwrite as t = .ok () (t.after as) ∧
      List.Forall₂ (Resolution.Moves x block depth) (s.after as).resolutions
        (t.after as).resolutions := by
  induction as generalizing s t with
  | nil => exact ⟨rfl, hfound⟩
  | cons a more ih =>
    have haccepted : a.refusal? .overwrite s.arena = none := by
      cases hr : a.refusal? .overwrite s.arena with
      | none => rfl
      | some cause =>
        rw [perform_cons_of_refused hr] at hok
        cases hok
    rw [perform_cons_of_accepted haccepted] at hok
    have haccepted' : a.refusal? .overwrite t.arena = none :=
      refusal?_gained h hx horder.1 (hrespects a List.mem_cons_self) haccepted
    have hsize := size_step a s
    have hfound' : List.Forall₂ (Resolution.Moves x block depth) (a.step s).resolutions
        (a.step t).resolutions := by
      rw [resolutions_step, resolutions_step]
      exact List.rel_append hfound (found_gained h hblock horder.1 haccepted)
    rw [perform_cons_of_accepted haccepted']
    exact ih (step_gained h horder.1) (has_after [a] hblock) (hsize ▸ horder.2)
      (fun b hb => hrespects b (List.mem_cons_of_mem a hb)) hfound' hok

end

/-! ## The actions of the larger program -/

/-- So many scopes have been created, and the one with an index has a name and is on a level. -/
structure State.Stands (s : State) (size index : Nat) (name : String) (level : Nat) : Prop where
  /-- The number of scopes. -/
  size : s.arena.size = size
  /-- The scope. -/
  scope : s.arena.Has index name level

/-- The second list of actions is the first one, and in between the two actions that declare the
variable `b`. If the actions begin where `pre` holds, they declare it in the scope `block` on the
level `depth`. -/
def Declares (b : Binding) (pre : State → Prop) (as as' : List Action) (block : String)
    (depth : Nat) : Prop :=
  ∃ before index after, as = before ++ after ∧
    as' = before ++ (bindingActions index b ++ after) ∧
    ∀ s, pre s → (s.after before).arena.Has index block depth

namespace Declares

variable {b : Binding} {pre pre' : State → Prop} {as as' : List Action} {block : String}
  {depth : Nat}

theorem entries_eq (h : Declares b pre as as' block depth) : entries as' = entries as := by
  obtain ⟨before, index, after, rfl, rfl, -⟩ := h
  rw [entries_append, entries_append, entries_append]
  rfl

theorem followed (h : Declares b pre as as' block depth) (more : List Action) :
    Declares b pre (as ++ more) (as' ++ more) block depth := by
  obtain ⟨before, index, after, rfl, rfl, hstate⟩ := h
  refine ⟨before, index, after ++ more, List.append_assoc .., ?_, hstate⟩
  rw [List.append_assoc, List.append_assoc]

theorem preceded {front : List Action} (h : Declares b pre' as as' block depth)
    (hfront : ∀ s, pre s → pre' (s.after front)) :
    Declares b pre (front ++ as) (front ++ as') block depth := by
  obtain ⟨before, index, after, rfl, rfl, hstate⟩ := h
  refine ⟨front ++ before, index, after, (List.append_assoc ..).symm, ?_, ?_⟩
  · rw [List.append_assoc]
  · intro s hs
    rw [State.after_append]
    exact hstate _ (hfront s hs)

end Declares

theorem has_pushed (arena : Arena) (name : String) (level : Nat) (parent : Option Nat) :
    (arena.push name level parent).Has arena.size name level := by
  refine ⟨Scope.create name level parent, ?_, ?_, ?_⟩
  · rw [Arena.get?_push, if_pos rfl]
  · exact (Scope.matches_create name level parent).name
  · exact Scope.level_create name level parent

theorem State.Stands.after {s : State} {size index level : Nat} {name : String}
    (h : s.Stands size index name level) (as : List Action) :
    (s.after as).Stands (size + (entries as).length) index name level := by
  refine ⟨?_, has_after as h.scope⟩
  rw [size_after, h.size]

theorem State.Stands.enter {s : State} {size outer level : Nat} {name : String}
    (h : s.Stands size outer name level) (procedure : String) :
    ((Action.enterProcedure outer procedure).step s).Stands (size + 1) size procedure
      (level + 1) := by
  obtain ⟨rfl, scope, hscope, -, rfl⟩ := h
  have hlevel : (s.arena.get? outer).elim 0 Scope.level + 1 = scope.level + 1 := by
    rw [hscope]
    rfl
  refine ⟨Arena.size_push .., ?_⟩
  rw [← hlevel]
  exact has_pushed s.arena procedure _ (some outer)

/-- Declarations with one more variable lead to the actions of the other declarations, and to those
in between that declare the variable in the scope of its block. -/
theorem declares_of_gains {b : Binding} {name block : String} {level depth : Nat}
    {ds ds' : List Declaration} (h : Declaration.Gains b name level ds ds' block depth)
    (outer next : Nat) :
    Declares b (State.Stands · next outer name level) (declarationsActions outer next ds)
      (declarationsActions outer next ds') block depth := by
  induction h generalizing outer next with
  | here name level ds =>
    refine ⟨[], outer, declarationsActions outer next ds, rfl, ?_, fun s hs => hs.scope⟩
    rw [declarationsActions, declarationActions]
    rfl
  | later first more ih =>
    rw [declarationsActions, declarationsActions]
    exact (ih outer _).preceded fun s hs => hs.after _
  | @inside procedure block level depth ds ds' name line parameters body more inner ih =>
    have hinner := (ih next (next + 1)).followed
      (bodyActions next (Statement.assignmentsOfList body) ++ [.leave next])
    -- the parameters create no scope
    have hparameters : ∀ s : State, s.Stands (next + 1) next procedure (level + 1) →
        (s.after (parameters.flatMap (bindingActions next))).Stands (next + 1) next procedure
          (level + 1) := by
      intro s hs
      have hafter := hs.after (parameters.flatMap (bindingActions next))
      rw [entries_bindings] at hafter
      exact hafter
    have hone : Declares b (State.Stands · next outer name level)
        (declarationActions outer next (.procedure procedure line parameters ds body))
        (declarationActions outer next (.procedure procedure line parameters ds' body))
        block depth := by
      rw [declarationActions_procedure, declarationActions_procedure]
      refine (hinner.preceded hparameters).preceded ?_
      intro s hs
      have hdefined := hs.after [.define outer ⟨procedure, .procedure (signature parameters)⟩ line]
      exact hdefined.enter procedure
    rw [declarationsActions, declarationsActions, hone.entries_eq]
    exact hone.followed _

theorem declares_of_program_gains {b : Binding} {p p' : Program} {block : String} {depth : Nat}
    (h : p.Gains b p' block depth) :
    Declares b (· = .initial) (programActions p) (programActions p') block depth := by
  have hname := h.name
  have hbody : p'.assignments = p.assignments := by
    unfold Program.assignments
    rw [h.body]
  have hinner := (declares_of_gains h.declarations 0 1).followed
    (bodyActions 0 p.assignments ++ [.leave 0])
  unfold programActions
  rw [hname, hbody]
  have hentered : ∀ s : State, s = .initial →
      (s.after [.enterProgram p.name]).Stands 1 0 globalName 1 := by
    rintro s rfl
    exact ⟨Arena.size_push .., has_pushed _ globalName 1 none⟩
  exact hinner.preceded hentered

/-- In the arena of any actions the links go to older scopes. -/
theorem linked_after {as : List Action} (horder : InOrder 0 as) :
    (State.initial.after as).arena.Linked := by
  intro i scope hscope outer houter
  rcases (mirrors_after horder).parent horder hscope with ⟨-, hnone⟩ | ⟨outer', hlt, hsome⟩
  · rw [hnone] at houter
    cases houter
  · rw [hsome] at houter
    cases houter
    exact hlt

/-- The two actions that declare a variable find no name. -/
theorem resolutions_binding (s : State) (index : Nat) (b : Binding) :
    (s.after (bindingActions index b)).resolutions = s.resolutions := by
  have hcheck : ∀ arena, (Action.checkType index b.type).found arena = [] :=
    found_eq_nil fun i name h => by cases h
  have hdefine : ∀ arena, (Action.define index b.symbol b.name.line).found arena = [] :=
    found_eq_nil fun i name h => by cases h
  show ((Action.define index b.symbol b.name.line).step
    ((Action.checkType index b.type).step s)).resolutions = _
  rw [resolutions_step, resolutions_step, hcheck, hdefine, List.append_nil, List.append_nil]

/-- They are accepted if the type is a built-in one, and they make the difference. -/
theorem perform_binding {before : List Action} {b : Binding} {index : Nat}
    (horder : InOrder 0 before) (hrespects : ∀ a ∈ before, a.Respects)
    (hindex : index < (State.initial.after before).arena.size)
    (htype : b.type.text ∈ builtinTypes) :
    perform .overwrite (bindingActions index b) (State.initial.after before) =
        .ok () ((State.initial.after before).after (bindingActions index b)) ∧
      (State.initial.after before).arena.Gained
        ((State.initial.after before).after (bindingActions index b)).arena index b.name.text := by
  have hcheck : (Action.checkType index b.type).refusal? .overwrite
      (State.initial.after before).arena = none := by
    rw [Action.refusal?, resolve?_builtin horder hrespects hindex htype]
    rfl
  refine ⟨?_, Arena.gained_define (linked_after horder) hindex b.symbol⟩
  unfold bindingActions
  rw [perform_cons_of_accepted hcheck, perform_cons_of_accepted rfl]
  rfl

theorem perform_of_append {policy : Policy} {as bs : List Action} {s s' : State}
    (h : perform policy (as ++ bs) s = .ok () s') :
    perform policy as s = .ok () (s.after as) ∧ perform policy bs (s.after as) = .ok () s' := by
  rw [perform_append] at h
  cases hfirst : perform policy as s with
  | ok _ s₁ =>
    rw [hfirst] at h
    obtain rfl := eq_after_of_perform hfirst
    exact ⟨rfl, h⟩
  | error cause s₁ =>
    rw [hfirst] at h
    cases h

/-- Actions that are accepted are accepted with the declaration of one more variable in between, and
what is found stays or moves to the block of the variable. -/
theorem perform_declares {as as' : List Action} {b : Binding} {block : String} {depth : Nat}
    (h : Declares b (· = .initial) as as' block depth) (horder : InOrder 0 as)
    (hrespects : ∀ a ∈ as, a.Respects) (hname : b.name.text ∉ builtinTypes)
    (htype : b.type.text ∈ builtinTypes)
    (hok : perform .overwrite as .initial = .ok () (State.initial.after as)) :
    ∃ t, perform .overwrite as' .initial = .ok () t ∧
      List.Forall₂ (Resolution.Moves b.name.text block depth)
        (State.initial.after as).resolutions t.resolutions := by
  obtain ⟨before, index, after, rfl, rfl, hstate⟩ := h
  rw [State.after_append] at hok ⊢
  obtain ⟨hbefore, hafter⟩ := perform_of_append hok
  obtain ⟨horder₁, horder₂⟩ := inOrder_append.1 horder
  have hsize : (State.initial.after before).arena.size = 0 + (entries before).length := size_after
  rw [← hsize] at horder₂
  have hblock := hstate .initial rfl
  have hindex : index < (State.initial.after before).arena.size := by
    obtain ⟨scope, hscope, -⟩ := hblock
    exact Arena.lt_size_of_get? hscope
  obtain ⟨hbinding, hgained⟩ := perform_binding horder₁
    (fun a ha => hrespects a (List.mem_append_left _ ha)) hindex htype
  have hstart : List.Forall₂ (Resolution.Moves b.name.text block depth)
      (State.initial.after before).resolutions
      ((State.initial.after before).after (bindingActions index b)).resolutions := by
    rw [resolutions_binding]
    exact List.forall₂_same.2 fun found _ => ⟨rfl, rfl, .inl rfl⟩
  obtain ⟨hafter', hmoves⟩ := perform_gained hgained hname (has_after _ hblock) horder₂
    (fun a ha => hrespects a (List.mem_append_right _ ha)) hstart hafter
  refine ⟨_, ?_, hmoves⟩
  rw [perform_append, hbefore]
  show perform .overwrite (bindingActions index b ++ after) _ = _
  rw [perform_append, hbinding]
  exact hafter'

end Analysis

open Analysis

/-- A program that was read and is accepted when later declarations win is still accepted when any
of its blocks declares one more variable, at any place among its declarations, unless this is named
like a built-in type. As many names are resolved as before, name by name on the same lines, and each
one in the same scope as before, except that uses of the new name may have moved to the scope of the
block. -/
theorem Analyzer.analyze_of_gains (earlier earlier' : State) {source : String} {p p' : Program}
    {b : Binding} {block : String} {depth : Nat} (hp : Program.ofSource source = .ok p)
    (hok : ((⟨.overwrite, earlier⟩ : Analyzer).analyze p).1 = .ok ())
    (hname : b.name.text ∉ builtinTypes) (htype : b.type.text ∈ builtinTypes)
    (hgains : p.Gains b p' block depth) :
    ((⟨.overwrite, earlier'⟩ : Analyzer).analyze p').1 = .ok () ∧
      ((⟨.overwrite, earlier'⟩ : Analyzer).analyze p').2.state.resolutions.length =
        ((⟨.overwrite, earlier⟩ : Analyzer).analyze p).2.state.resolutions.length ∧
      List.Forall₂ (Resolution.Moves b.name.text block depth)
        ((⟨.overwrite, earlier⟩ : Analyzer).analyze p).2.state.resolutions
        ((⟨.overwrite, earlier'⟩ : Analyzer).analyze p').2.state.resolutions := by
  have hall : perform .overwrite (programActions p) .initial =
      .ok () (State.initial.after (programActions p)) := by
    rcases perform_cases .overwrite (programActions p) .initial with hok' |
      ⟨_, _, _, cause, -, -, -, hends⟩
    · exact hok'
    · rw [analyze_of_error earlier hends] at hok
      cases hok
  obtain ⟨t, hall', hmoves⟩ := perform_declares (declares_of_program_gains hgains)
    (inOrder_programActions p) (respects_of_ofSource hp) hname htype hall
  rw [analyze_of_ok earlier hall, analyze_of_ok earlier' hall']
  exact ⟨rfl, hmoves.length_eq.symm, hmoves⟩

/-- The program with one more variable behind the declarations of the procedure that it declares
second, and the name of this procedure. -/
def Program.withLocal? (b : Binding) (p : Program) : Option (String × Program) :=
  match p.block.declarations with
  | first :: .procedure name line parameters ds body :: more =>
      some (name, ⟨p.name, ⟨first ::
        .procedure name line parameters (ds ++ [.variable b]) body :: more, p.block.body⟩⟩)
  | _ => none

theorem Declaration.gains_append (b : Binding) (name : String) (level : Nat)
    (ds : List Declaration) :
    Declaration.Gains b name level ds (ds ++ [.variable b]) name level := by
  induction ds with
  | nil => exact .here name level []
  | cons first more ih => exact .later first ih

theorem Program.gains_of_withLocal? {b : Binding} {p p' : Program} {name : String}
    (h : p.withLocal? b = some (name, p')) : p.Gains b p' name 2 := by
  unfold withLocal? at h
  split at h
  · rename_i first procedure line parameters ds body more hds
    cases h
    refine ⟨rfl, ?_, rfl⟩
    rw [hds]
    exact .later first
      (.inside globalName line parameters body more (Declaration.gains_append b name 2 ds))
  · cases h

/-- A program whose procedure uses a variable of the program, in a procedure inside it and in its
own body. -/
def outerVariable : String :=
  "PROGRAM p; VAR x : INTEGER; PROCEDURE q; PROCEDURE r; BEGIN x := 1 END; " ++
    "BEGIN x := 2 END; BEGIN x := 3 END."

/-- If the procedure declares the variable again, behind the procedure inside it, then only its own
body uses the new one. -/
theorem Analyzer.analyze_of_gains_sample :
    ∃ p p', Program.ofSource outerVariable = .ok p ∧
      p.Gains ⟨⟨"x", 7⟩, ⟨"REAL", 7⟩⟩ p' "q" 2 ∧
      ((⟨.overwrite, .initial⟩ : Analyzer).analyze p).1 = .ok () ∧
      ((⟨.overwrite, .initial⟩ : Analyzer).analyze p').1 = .ok () ∧
      ((⟨.overwrite, .initial⟩ : Analyzer).analyze p).2.state.resolutions =
        [⟨"x", 1, "global", 1⟩, ⟨"x", 1, "global", 1⟩, ⟨"x", 1, "global", 1⟩] ∧
      ((⟨.overwrite, .initial⟩ : Analyzer).analyze p').2.state.resolutions =
        [⟨"x", 1, "global", 1⟩, ⟨"x", 1, "q", 2⟩, ⟨"x", 1, "global", 1⟩] ∧
      List.Forall₂ (Resolution.Moves "x" "q" 2)
        ((⟨.overwrite, .initial⟩ : Analyzer).analyze p).2.state.resolutions
        ((⟨.overwrite, .initial⟩ : Analyzer).analyze p').2.state.resolutions := by
  have hread : (Program.ofSource outerVariable).toOption.bind (fun p =>
      (p.withLocal? ⟨⟨"x", 7⟩, ⟨"REAL", 7⟩⟩).map fun local' =>
        (local'.1, ((⟨.overwrite, .initial⟩ : Analyzer).analyze p).1,
          ((⟨.overwrite, .initial⟩ : Analyzer).analyze p).2.state.resolutions,
          ((⟨.overwrite, .initial⟩ : Analyzer).analyze local'.2).2.state.resolutions)) =
      some ("q", .ok (),
        [⟨"x", 1, "global", 1⟩, ⟨"x", 1, "global", 1⟩, ⟨"x", 1, "global", 1⟩],
        [⟨"x", 1, "global", 1⟩, ⟨"x", 1, "q", 2⟩, ⟨"x", 1, "global", 1⟩]) := by decide +kernel
  obtain ⟨p, hoption, hmap⟩ := Option.bind_eq_some_iff.1 hread
  obtain ⟨⟨name, p'⟩, hlocal, hresults⟩ := Option.map_eq_some_iff.1 hmap
  simp only [Prod.mk.injEq] at hresults
  obtain ⟨rfl, hok, hold, hnew⟩ := hresults
  have hp : Program.ofSource outerVariable = .ok p := by
    cases hsource : Program.ofSource outerVariable with
    | error cause =>
      rw [hsource] at hoption
      cases hoption
    | ok p₁ =>
      rw [hsource] at hoption
      cases hoption
      rfl
  have hgains := Program.gains_of_withLocal? hlocal
  obtain ⟨hok', -, hmoves⟩ := Analyzer.analyze_of_gains .initial .initial hp hok (by decide)
    (by decide) hgains
  exact ⟨p, p', hp, hgains, hok, hok', hold, hnew, hmoves⟩

end PocketPascal
