import PocketPascal.Proofs.Scope.Actions
import PocketPascal.Proofs.Scope.Chains

/-!
# Scopes as a program declares them

An outline lists what a scope declares, in the order of its definition; the outlines of a program
are read off its tree, the scope of a procedure before those of the procedures in it. The arena of an
analysis mirrors them: after any number of actions it holds the scopes that these have created, and
every name means in a scope what was defined last under it.
-/

namespace PocketPascal

/-- A scope as it is declared. -/
structure Outline where
  /-- The name of the scope. -/
  name : String
  /-- The index of the scope around it, if there is one. -/
  parent : Option Nat
  /-- The symbols, in the order of their definition. -/
  symbols : List Symbol

/-- The symbols of a scope in which nothing has been defined: the built-in types, if there is no
scope around it. -/
def builtinSymbols (parent : Option Nat) : List Symbol :=
  match parent with
  | none => builtinTypes.map fun type => ⟨type, .builtin⟩
  | some _ => []

mutual

/-- The scopes that a declaration in the scope `outer` creates, where `next` is the index of the
first of them. -/
def Declaration.outlines (outer next : Nat) : Declaration → List Outline
  | .variable _ => []
  | .procedure name _ parameters declarations _ =>
      ⟨name, some outer, parameters.map Binding.symbol ++ declarations.map Declaration.symbol⟩ ::
        Declaration.outlinesOfList next (next + 1) declarations

/-- The scopes that declarations create, one after another. -/
def Declaration.outlinesOfList (outer next : Nat) : List Declaration → List Outline
  | [] => []
  | first :: more =>
      first.outlines outer next ++
        Declaration.outlinesOfList outer (next + (first.outlines outer next).length) more

end

/-- The scopes of a program. -/
def Program.outlines (p : Program) : List Outline :=
  ⟨Analysis.globalName, none, builtinSymbols none ++ p.block.declarations.map Declaration.symbol⟩ ::
    Declaration.outlinesOfList 0 1 p.block.declarations

/-- The latest of the symbols with a name. -/
def latest? (symbols : List Symbol) (x : String) : Option Symbol :=
  symbols.reverse.find? fun symbol => symbol.name = x

/-- A scope holds what an outline lists, under every name the latest symbol. -/
structure Scope.Matches (s : Scope) (o : Outline) : Prop where
  name : s.name = o.name
  parent : s.parent = o.parent
  lookup : ∀ x, s.lookup? x = latest? o.symbols x

section

variable {symbols : List Symbol} {symbol : Symbol} {x : String}

theorem latest?_concat : latest? (symbols ++ [symbol]) x =
    if symbol.name = x then some symbol else latest? symbols x := by
  rw [latest?, List.reverse_append, List.reverse_singleton, List.singleton_append, List.find?_cons]
  by_cases h : symbol.name = x
  · simp [h]
  · simp [h, latest?]

theorem latest?_append {more : List Symbol} (h : ∀ symbol ∈ more, symbol.name ≠ x) :
    latest? (symbols ++ more) x = latest? symbols x := by
  have hnone : more.reverse.find? (fun symbol => symbol.name = x) = none := by
    rw [List.find?_eq_none]
    intro symbol hs
    simpa using h symbol (List.mem_reverse.1 hs)
  rw [latest?, List.reverse_append, List.find?_append, hnone, Option.none_or, latest?]

theorem mem_of_latest? (h : latest? symbols x = some symbol) :
    symbol ∈ symbols ∧ symbol.name = x := by
  have hmem := List.mem_of_find?_eq_some h
  have hname := List.find?_some h
  exact ⟨List.mem_reverse.1 hmem, by simpa using hname⟩

theorem isSome_latest?_iff : (latest? symbols x).isSome ↔ x ∈ symbols.map Symbol.name := by
  rw [latest?, List.find?_isSome, List.mem_map]
  simp

theorem Scope.level_create (name : String) (level : Nat) (parent : Option Nat) :
    (create name level parent).level = level := by
  cases parent <;> rfl

theorem Scope.matches_create (name : String) (level : Nat) (parent : Option Nat) :
    (Scope.create name level parent).Matches ⟨name, parent, builtinSymbols parent⟩ := by
  cases parent with
  | some outer => exact ⟨rfl, rfl, fun x => lookup?_create_some name level outer x⟩
  | none =>
    refine ⟨rfl, rfl, fun x => ?_⟩
    have hsymbols : builtinSymbols none =
        [] ++ [⟨"INTEGER", .builtin⟩] ++ [⟨"REAL", .builtin⟩] := rfl
    rw [lookup?_create_none, hsymbols, latest?_concat, latest?_concat]
    by_cases hr : x = "REAL"
    · subst hr
      rfl
    · by_cases hi : x = "INTEGER"
      · subst hi
        rfl
      · have hout : x ∉ builtinTypes := by simp [builtinTypes, hr, hi]
        rw [if_neg hout, if_neg (Ne.symm hr), if_neg (Ne.symm hi)]
        rfl

theorem Scope.Matches.define {s : Scope} {o : Outline} (h : s.Matches o) (symbol : Symbol) :
    (s.define symbol).Matches { o with symbols := o.symbols ++ [symbol] } := by
  refine ⟨h.name, h.parent, fun x => ?_⟩
  rw [lookup?_define, latest?_concat, h.lookup]

end

namespace Analysis

/-- The symbols that actions define in the scope with an index, in order. -/
def definedIn (i : Nat) (as : List Action) : List Symbol :=
  as.filterMap fun a =>
    match a with
    | .define j symbol _ => if j = i then some symbol else none
    | _ => none

/-- The scope with an index, as actions have created it and defined symbols in it. -/
def outline? (as : List Action) (i : Nat) : Option Outline :=
  (entries as)[i]?.map fun entry => ⟨entry.1, entry.2, builtinSymbols entry.2 ++ definedIn i as⟩

/-- The action can be performed where a number of scopes have been created: it names one of them,
and the program is entered first. -/
def Action.Fits (size : Nat) : Action → Prop
  | enterProgram _ => size = 0
  | enterProcedure outer _ => outer < size
  | checkType index _ => index < size
  | define index _ _ => index < size
  | checkName index _ => index < size
  | leave index => index < size

/-- The actions can be performed one after another. -/
def InOrder (size : Nat) : List Action → Prop
  | [] => True
  | a :: more => a.Fits size ∧ InOrder (size + (entries [a]).length) more

section

variable {as bs : List Action} {size i : Nat}

@[simp] theorem definedIn_append : definedIn i (as ++ bs) = definedIn i as ++ definedIn i bs :=
  List.filterMap_append

theorem inOrder_append :
    InOrder size (as ++ bs) ↔ InOrder size as ∧ InOrder (size + (entries as).length) bs := by
  induction as generalizing size with
  | nil => simp [InOrder, entries]
  | cons a more ih =>
    have hentries : entries (a :: more) = entries [a] ++ entries more := entries_cons a
    rw [List.cons_append, InOrder, InOrder, ih, hentries, List.length_append, Nat.add_assoc,
      and_assoc]

/-- Performing more actions adds symbols to the scopes that are there. -/
theorem outline?_append {o : Outline} (h : outline? as i = some o) :
    ∃ symbols, outline? (as ++ bs) i = some ⟨o.name, o.parent, o.symbols ++ symbols⟩ := by
  obtain ⟨entry, he, rfl⟩ := Option.map_eq_some_iff.1 h
  have hlt : i < (entries as).length := (List.getElem?_eq_some_iff.1 he).1
  refine ⟨definedIn i bs, ?_⟩
  rw [outline?, entries_append, List.getElem?_append_left hlt, he, definedIn_append,
    Option.map_some, ← List.append_assoc]

theorem outline?_quiet {a : Action} (he : entries [a] = []) (hd : ∀ i, definedIn i [a] = []) :
    outline? (as ++ [a]) i = outline? as i := by
  rw [outline?, outline?, entries_append, he, List.append_nil, definedIn_append, hd,
    List.append_nil]

theorem outline?_push {a : Action} {name : String} {parent : Option Nat}
    (he : entries [a] = [(name, parent)]) (hd : ∀ i, definedIn i [a] = [])
    (hfresh : definedIn (entries as).length as = []) :
    outline? (as ++ [a]) i =
      if i = (entries as).length then some ⟨name, parent, builtinSymbols parent⟩
      else outline? as i := by
  rw [outline?, outline?, entries_append, he, definedIn_append, hd, List.append_nil]
  by_cases hi : i = (entries as).length
  · rw [if_pos hi, hi, hfresh]
    simp
  · rw [if_neg hi]
    by_cases hlt : i < (entries as).length
    · rw [List.getElem?_append_left hlt]
    · have hout : (entries as ++ [(name, parent)])[i]? = none := by
        rw [List.getElem?_eq_none_iff, List.length_append, List.length_singleton]
        omega
      rw [hout, List.getElem?_eq_none (by omega)]

theorem outline?_define (index : Nat) (symbol : Symbol) (line : Nat) :
    outline? (as ++ [.define index symbol line]) i =
      if index = i then (outline? as i).map fun o => { o with symbols := o.symbols ++ [symbol] }
      else outline? as i := by
  have hentries : entries (as ++ [.define index symbol line]) = entries as := by
    rw [entries_append]
    exact List.append_nil _
  rw [outline?, outline?, hentries, definedIn_append]
  by_cases hi : index = i
  · have hone : definedIn i [.define index symbol line] = [symbol] := by simp [definedIn, hi]
    rw [if_pos hi, hone, Option.map_map]
    congr 1
    funext entry
    rw [← List.append_assoc]
    rfl
  · have hnone : definedIn i [.define index symbol line] = [] := by simp [definedIn, hi]
    rw [if_neg hi, hnone, List.append_nil]

/-- Every scope but the first one has an older one around it. -/
theorem linked_entries (h : InOrder size as) {entry : String × Option Nat}
    (he : (entries as)[i]? = some entry) :
    (size + i = 0 ∧ entry.2 = none) ∨ ∃ outer < size + i, entry.2 = some outer := by
  induction as generalizing size i with
  | nil => cases he
  | cons a more ih =>
    have hentries : entries (a :: more) = entries [a] ++ entries more := entries_cons a
    rw [InOrder] at h
    rw [hentries] at he
    by_cases hi : i < (entries [a]).length
    · rw [List.getElem?_append_left hi] at he
      cases a with
      | enterProgram program =>
        have hsize : size = 0 := h.1
        have hzero : i = 0 := Nat.lt_one_iff.1 hi
        subst hzero
        cases he
        exact .inl ⟨hsize, rfl⟩
      | enterProcedure outer name =>
        have houter : outer < size := h.1
        have hzero : i = 0 := Nat.lt_one_iff.1 hi
        subst hzero
        cases he
        exact .inr ⟨outer, houter, rfl⟩
      | checkType => cases he
      | define => cases he
      | checkName => cases he
      | leave => cases he
    · rw [List.getElem?_append_right (by omega)] at he
      rcases ih h.2 he with ⟨hsum, hnone⟩ | ⟨outer, hlt, hsome⟩
      · exact .inl ⟨by omega, hnone⟩
      · exact .inr ⟨outer, by omega, hsome⟩

end

/-! ## The arena mirrors the actions -/

/-- The arena holds the scopes that the actions have created, with what they have defined. -/
structure Mirrors (as : List Action) (arena : Arena) : Prop where
  /-- The scopes are those that were created. -/
  size : arena.size = (entries as).length
  /-- Every scope holds what was defined in it. -/
  scope : ∀ i s, arena.get? i = some s → ∃ o, outline? as i = some o ∧ s.Matches o
  /-- Nothing has been defined in scopes to come. -/
  fresh : ∀ i, arena.size ≤ i → definedIn i as = []

namespace Mirrors

variable {as bs : List Action} {arena : Arena}

theorem found (h : Mirrors as arena) {i : Nat} (hi : i < arena.size) :
    ∃ s o, arena.get? i = some s ∧ outline? as i = some o ∧ s.Matches o := by
  have hget : arena.get? i = some arena.scopes[i] := Array.getElem?_eq_getElem hi
  obtain ⟨o, ho, hmatches⟩ := h.scope i _ hget
  exact ⟨_, o, hget, ho, hmatches⟩

theorem quiet {a : Action} (h : Mirrors as arena) (he : entries [a] = [])
    (hd : ∀ i, definedIn i [a] = []) : Mirrors (as ++ [a]) arena := by
  refine ⟨?_, fun i s hs => ?_, fun i hi => ?_⟩
  · rw [entries_append, he, List.append_nil, h.size]
  · rw [outline?_quiet he hd]
    exact h.scope i s hs
  · rw [definedIn_append, hd, List.append_nil]
    exact h.fresh i hi

theorem push {a : Action} {name : String} {parent : Option Nat} (h : Mirrors as arena)
    (he : entries [a] = [(name, parent)]) (hd : ∀ i, definedIn i [a] = []) (level : Nat) :
    Mirrors (as ++ [a]) (arena.push name level parent) := by
  have hfresh := h.fresh _ (Nat.le_of_eq h.size)
  refine ⟨?_, fun i s hs => ?_, fun i hi => ?_⟩
  · rw [Arena.size_push, entries_append, he, List.length_append, h.size]
    rfl
  · rw [Arena.get?_push, h.size] at hs
    rw [outline?_push he hd hfresh]
    by_cases hi : i = (entries as).length
    · rw [if_pos hi] at hs ⊢
      cases hs
      exact ⟨_, rfl, Scope.matches_create name level parent⟩
    · rw [if_neg hi] at hs ⊢
      exact h.scope i s hs
  · rw [Arena.size_push] at hi
    rw [definedIn_append, hd, List.append_nil]
    exact h.fresh i (by omega)

theorem define (h : Mirrors as arena) {index : Nat} (hindex : index < arena.size) (symbol : Symbol)
    (line : Nat) : Mirrors (as ++ [.define index symbol line]) (arena.define index symbol) := by
  refine ⟨?_, fun i s hs => ?_, fun i hi => ?_⟩
  · rw [Arena.size_define, entries_append, h.size]
    exact congrArg List.length (List.append_nil _).symm
  · rw [Arena.get?_define] at hs
    rw [outline?_define]
    by_cases hi : index = i
    · rw [if_pos hi] at hs ⊢
      obtain ⟨s', hs', rfl⟩ := Option.map_eq_some_iff.1 hs
      obtain ⟨o, ho, hmatches⟩ := h.scope i s' hs'
      rw [ho]
      exact ⟨_, rfl, hmatches.define symbol⟩
    · rw [if_neg hi] at hs ⊢
      exact h.scope i s hs
  · rw [Arena.size_define] at hi
    have hne : index ≠ i := by omega
    have hnone : definedIn i [.define index symbol line] = [] := by simp [definedIn, hne]
    rw [definedIn_append, hnone, List.append_nil]
    exact h.fresh i hi

/-- One action keeps the arena a mirror. -/
theorem step {s : State} (h : Mirrors as s.arena) {a : Action} (ha : a.Fits s.arena.size) :
    Mirrors (as ++ [a]) (a.step s).arena := by
  cases a with
  | enterProgram program => exact h.push rfl (fun _ => rfl) 1
  | enterProcedure outer name => exact h.push rfl (fun _ => rfl) _
  | define index symbol line => exact h.define ha symbol line
  | checkType index type => exact h.quiet rfl fun _ => rfl
  | checkName index name => exact h.quiet rfl fun _ => rfl
  | leave index => exact h.quiet rfl fun _ => rfl

/-- Any number of actions keep the arena a mirror. -/
theorem after {s : State} (h : Mirrors as s.arena) (hb : InOrder s.arena.size bs) :
    Mirrors (as ++ bs) (s.after bs).arena := by
  induction bs generalizing as s with
  | nil => rwa [List.append_nil]
  | cons a more ih =>
    have hfirst := h.step hb.1
    have hsize : (s.after [a]).arena.size = s.arena.size + (entries [a]).length := size_after
    have hmore : InOrder (a.step s).arena.size more := hsize.symm ▸ hb.2
    have hall := ih hfirst hmore
    rwa [List.append_assoc] at hall

end Mirrors

/-- From the beginning on, the arena mirrors the actions. -/
theorem mirrors_after {as : List Action} (h : InOrder 0 as) :
    Mirrors as (State.initial.after as).arena := by
  have hnothing : Mirrors [] State.initial.arena :=
    ⟨rfl, fun i s hs => (nomatch hs), fun _ _ => rfl⟩
  exact hnothing.after h

/-- Every scope but the first one has an older one around it. -/
theorem Mirrors.parent {as : List Action} {arena : Arena} (h : Mirrors as arena)
    (horder : InOrder 0 as) {i : Nat} {s : Scope} (hs : arena.get? i = some s) :
    (i = 0 ∧ s.parent = none) ∨ ∃ outer < i, s.parent = some outer := by
  obtain ⟨o, ho, hmatches⟩ := h.scope i s hs
  obtain ⟨entry, he, rfl⟩ := Option.map_eq_some_iff.1 ho
  rw [hmatches.parent]
  rcases linked_entries horder he with ⟨hzero, hnone⟩ | ⟨outer, hlt, hsome⟩
  · exact .inl ⟨by omega, hnone⟩
  · exact .inr ⟨outer, by omega, hsome⟩

/-! ## The outlines of a program -/

/-- The name of a scope and the scope around it. -/
def header (o : Outline) : String × Option Nat := (o.name, o.parent)

theorem entries_body (index : Nat) (as : List Assignment) :
    entries (bodyActions index as ++ [.leave index]) = [] := by
  rw [bodyActions, entries_append, entries_names]
  rfl

mutual

theorem entries_declarationActions (outer next : Nat) (d : Declaration) :
    entries (declarationActions outer next d) = (d.outlines outer next).map header := by
  cases d with
  | «variable» b =>
    rw [declarationActions, Declaration.outlines]
    rfl
  | procedure name line parameters declarations body =>
    have hinner := entries_declarationsActions next (next + 1) declarations
    rw [declarationActions_procedure, Declaration.outlines, entries_append, entries_append,
      entries_append, entries_bindings, hinner, entries_body, List.append_nil]
    rfl

theorem entries_declarationsActions (outer next : Nat) (ds : List Declaration) :
    entries (declarationsActions outer next ds) =
      (Declaration.outlinesOfList outer next ds).map header := by
  cases ds with
  | nil =>
    rw [declarationsActions, Declaration.outlinesOfList]
    rfl
  | cons first more =>
    have hfirst := entries_declarationActions outer next first
    rw [declarationsActions, Declaration.outlinesOfList, entries_append, hfirst, List.length_map,
      List.map_append, entries_declarationsActions]

end

/-- The symbols of the outline with an index, where the first of the outlines has the index
`next`. -/
def symbolsAt (next : Nat) (os : List Outline) (i : Nat) : List Symbol :=
  if next ≤ i then (os[i - next]?).elim [] Outline.symbols else []

section

variable {next i : Nat} {os os' : List Outline}

theorem symbolsAt_of_lt (h : i < next) : symbolsAt next os i = [] := by
  rw [symbolsAt, if_neg (by omega)]

theorem symbolsAt_cons (o : Outline) :
    symbolsAt next (o :: os) i = if next = i then o.symbols else symbolsAt (next + 1) os i := by
  by_cases hi : next = i
  · subst hi
    simp [symbolsAt]
  · by_cases hlt : next < i
    · have hsub : i - next = (i - (next + 1)) + 1 := by omega
      rw [if_neg hi, symbolsAt, symbolsAt, if_pos (by omega), if_pos (by omega), hsub,
        List.getElem?_cons_succ]
    · rw [if_neg hi, symbolsAt_of_lt (by omega), symbolsAt_of_lt (by omega)]

theorem symbolsAt_append :
    symbolsAt next (os ++ os') i = symbolsAt next os i ++ symbolsAt (next + os.length) os' i := by
  induction os generalizing next with
  | nil => simp [symbolsAt]
  | cons o more ih =>
    have hlength : next + (o :: more).length = next + 1 + more.length := by
      rw [List.length_cons]
      omega
    rw [List.cons_append, symbolsAt_cons, symbolsAt_cons, ih, hlength]
    by_cases hi : next = i
    · rw [if_pos hi, if_pos hi, symbolsAt_of_lt (by omega), List.append_nil]
    · rw [if_neg hi, if_neg hi]

end

theorem definedIn_body (i index : Nat) (as : List Assignment) :
    definedIn i (bodyActions index as ++ [.leave index]) = [] := by
  have hnames : definedIn i (bodyActions index as) = [] := by
    rw [definedIn, bodyActions, List.filterMap_map, List.filterMap_eq_nil_iff]
    intro name _
    rfl
  rw [definedIn_append, hnames]
  rfl

theorem definedIn_bindings (i index : Nat) (bs : List Binding) :
    definedIn i (bs.flatMap (bindingActions index)) =
      if index = i then bs.map Binding.symbol else [] := by
  induction bs with
  | nil => simp [definedIn]
  | cons b more ih =>
    rw [List.flatMap_cons, definedIn_append, ih]
    by_cases hi : index = i <;> simp [definedIn, bindingActions, hi]

mutual

theorem definedIn_declarationActions (outer next i : Nat) (d : Declaration) :
    definedIn i (declarationActions outer next d) =
      (if outer = i then [d.symbol] else []) ++ symbolsAt next (d.outlines outer next) i := by
  cases d with
  | «variable» b =>
    have hbinding := definedIn_bindings i outer [b]
    have hnone : symbolsAt next [] i = [] := by simp [symbolsAt]
    rw [List.flatMap_singleton] at hbinding
    rw [declarationActions, Declaration.outlines, hbinding, hnone, List.append_nil]
    rfl
  | procedure name line parameters declarations body =>
    have hinner := definedIn_declarationsActions (Nat.lt_succ_self next) i declarations
    have hopening : definedIn i [.define outer ⟨name, .procedure (signature parameters)⟩ line,
          .enterProcedure outer name] =
        if outer = i then [⟨name, .procedure (signature parameters)⟩] else [] := by
      by_cases hi : outer = i <;> simp [definedIn, hi]
    rw [declarationActions_procedure, Declaration.outlines, definedIn_append, definedIn_append,
      definedIn_append, definedIn_bindings, hinner, definedIn_body, hopening, symbolsAt_cons,
      List.append_nil]
    by_cases hi : next = i
    · rw [if_pos hi, if_pos hi, if_pos hi, symbolsAt_of_lt (by omega), List.append_nil]
      rfl
    · rw [if_neg hi, if_neg hi, if_neg hi]
      rfl

theorem definedIn_declarationsActions {outer next : Nat} (h : outer < next) (i : Nat)
    (ds : List Declaration) :
    definedIn i (declarationsActions outer next ds) =
      (if outer = i then ds.map Declaration.symbol else []) ++
        symbolsAt next (Declaration.outlinesOfList outer next ds) i := by
  cases ds with
  | nil =>
    rw [declarationsActions, Declaration.outlinesOfList]
    simp [definedIn, symbolsAt]
  | cons first more =>
    have hfirst := definedIn_declarationActions outer next i first
    have hlength : (entries (declarationActions outer next first)).length =
        (first.outlines outer next).length := by rw [entries_declarationActions, List.length_map]
    have hnext : outer < next + (first.outlines outer next).length := by omega
    have hmore := definedIn_declarationsActions hnext i more
    rw [declarationsActions, Declaration.outlinesOfList, definedIn_append, hlength, hfirst, hmore,
      symbolsAt_append]
    by_cases hi : outer = i
    · rw [if_pos hi, if_pos hi, if_pos hi, symbolsAt_of_lt (by omega), symbolsAt_of_lt (by omega)]
      simp
    · rw [if_neg hi, if_neg hi, if_neg hi]
      simp

end

/-! ## The order of the actions of a program -/

theorem inOrder_names {index size : Nat} (h : index < size) (names : List Name) :
    InOrder size (names.map (.checkName index)) := by
  induction names with
  | nil => trivial
  | cons name more ih => exact ⟨h, ih⟩

theorem inOrder_bindings {index size : Nat} (h : index < size) (bs : List Binding) :
    InOrder size (bs.flatMap (bindingActions index)) := by
  induction bs with
  | nil => trivial
  | cons b more ih => exact ⟨h, h, ih⟩

theorem inOrder_body {index size : Nat} (h : index < size) (as : List Assignment) :
    InOrder size (bodyActions index as ++ [.leave index]) := by
  rw [inOrder_append, bodyActions, entries_names]
  exact ⟨inOrder_names h _, h, trivial⟩

mutual

theorem inOrder_declarationActions {outer next : Nat} (h : outer < next) (d : Declaration) :
    InOrder next (declarationActions outer next d) := by
  cases d with
  | «variable» b =>
    rw [declarationActions]
    exact ⟨h, h, trivial⟩
  | procedure name line parameters declarations body =>
    have hnext : next < next + 1 := Nat.lt_succ_self next
    have hopening : InOrder next [.define outer ⟨name, .procedure (signature parameters)⟩ line,
        .enterProcedure outer name] := ⟨h, h, trivial⟩
    have hinner := inOrder_declarationsActions hnext declarations
    rw [declarationActions_procedure, inOrder_append, inOrder_append, inOrder_append,
      entries_bindings]
    refine ⟨hopening, inOrder_bindings hnext parameters, hinner, inOrder_body ?_ _⟩
    show next < next + 1 + 0 + _
    omega

theorem inOrder_declarationsActions {outer next : Nat} (h : outer < next) (ds : List Declaration) :
    InOrder next (declarationsActions outer next ds) := by
  cases ds with
  | nil =>
    rw [declarationsActions]
    trivial
  | cons first more =>
    have hfirst := inOrder_declarationActions h first
    rw [declarationsActions, inOrder_append]
    exact ⟨hfirst, inOrder_declarationsActions (by omega) more⟩

end

theorem inOrder_programActions (p : Program) : InOrder 0 (programActions p) := by
  have hdeclarations := inOrder_declarationsActions Nat.one_pos p.block.declarations
  rw [programActions, InOrder, inOrder_append]
  refine ⟨rfl, hdeclarations, inOrder_body ?_ _⟩
  show 0 < 0 + 1 + _
  omega

/-- The actions of a program create its scopes, and define in each of them what it declares. -/
theorem outline?_programActions (p : Program) (i : Nat) :
    outline? (programActions p) i = p.outlines[i]? := by
  have hinner := entries_declarationsActions 0 1 p.block.declarations
  have hentries : entries (programActions p) = p.outlines.map header := by
    rw [programActions, entries_cons, entries_append, hinner, entries_body, List.append_nil]
    rfl
  have hdefined : definedIn i (programActions p) =
      (if 0 = i then p.block.declarations.map Declaration.symbol else []) ++
        symbolsAt 1 (Declaration.outlinesOfList 0 1 p.block.declarations) i := by
    rw [programActions, ← List.singleton_append, definedIn_append, definedIn_append, definedIn_body,
      List.append_nil, definedIn_declarationsActions Nat.one_pos]
    rfl
  cases i with
  | zero =>
    rw [outline?, hentries, hdefined, symbolsAt_of_lt Nat.one_pos, List.append_nil]
    rfl
  | succ j =>
    have htail : p.outlines[j + 1]? =
        (Declaration.outlinesOfList 0 1 p.block.declarations)[j]? := by
      rw [Program.outlines, List.getElem?_cons_succ]
    have hsymbols : definedIn (j + 1) (programActions p) =
        (p.outlines[j + 1]?).elim [] Outline.symbols := by
      rw [hdefined, if_neg (Nat.succ_ne_zero j).symm, List.nil_append, symbolsAt,
        if_pos (Nat.le_add_left 1 j), htail, Nat.add_sub_cancel]
    rw [outline?, hsymbols]
    cases ho : p.outlines[j + 1]? with
    | none =>
      rw [hentries, List.getElem?_map, ho]
      rfl
    | some o =>
      have he : (entries (programActions p))[j + 1]? = some (header o) := by
        rw [hentries, List.getElem?_map, ho]
        rfl
      -- a scope that is not the first one has a scope around it, so it begins without symbols
      obtain ⟨outer, hparent⟩ : ∃ outer, o.parent = some outer := by
        rcases linked_entries (inOrder_programActions p) he with ⟨hzero, -⟩ | ⟨outer, -, hsome⟩
        · omega
        · exact ⟨outer, hsome⟩
      have hbuiltin : builtinSymbols (header o).2 = [] := by
        rw [header, hparent]
        rfl
      rw [he, Option.map_some, hbuiltin]
      rfl

end Analysis

end PocketPascal
