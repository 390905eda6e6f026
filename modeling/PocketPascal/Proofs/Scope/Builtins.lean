import Mathlib.Data.List.Induction
import PocketPascal.Proofs.Scope.Strictness
import PocketPascal.Proofs.Syntax.Mentions

/-!
# Built-in types

The built-in types are named by reserved words, and the scanner takes no reserved word for a name.
So a program that was read from a text neither declares nor uses one of their names, and where it
names a type, it names one of them. The rest is a matter of scopes: actions of this sort leave the
built-in types where the outermost scope has put them, and whoever asks for one finds it there.
-/

namespace PocketPascal

/-- The name that an error is about. -/
def ScopeError.name : ScopeError → String
  | .unknownName name _ => name
  | .unknownType name _ => name
  | .duplicateName name _ _ => name

/-- A symbol that may be declared in a program: it is no type and not named like one, and a variable
has a built-in type. -/
structure Symbol.IsOrdinary (symbol : Symbol) : Prop where
  /-- Its name is not that of a type. -/
  name : symbol.name ∉ builtinTypes
  /-- It is no type. -/
  notType : symbol.isType = false
  /-- A variable has a built-in type. -/
  typed : ∀ type, symbol.meaning = .variable type → type ∈ builtinTypes

theorem Arena.lookup?_of_resolve? {arena : Arena} {x : String} {i owner : Nat} {symbol : Symbol}
    (h : arena.resolve? i x = some (owner, symbol)) :
    ∃ s, arena.get? owner = some s ∧ s.lookup? x = some symbol := by
  induction i using Nat.strongRecOn with
  | ind i ih =>
    rw [resolve?] at h
    cases hget : arena.get? i with
    | none =>
      rw [hget] at h
      cases h
    | some s =>
      rw [hget] at h
      cases hlook : s.lookup? x with
      | some found =>
        simp only [hlook] at h
        cases h
        exact ⟨s, hget, hlook⟩
      | none =>
        simp only [hlook] at h
        cases hparent : s.parent with
        | none =>
          rw [hparent] at h
          cases h
        | some parent =>
          simp only [hparent] at h
          split at h
          · rename_i hlt
            exact ih parent hlt h
          · cases h

namespace Analysis

/-! ## Actions that leave the built-in types alone -/

/-- The action names built-in types where it asks for a type, and nowhere else. -/
def Action.Respects : Action → Prop
  | checkType _ type => type.text ∈ builtinTypes
  | define _ symbol _ => symbol.IsOrdinary
  | checkName _ name => name.text ∉ builtinTypes
  | enterProgram _ => True
  | enterProcedure _ _ => True
  | leave _ => True

theorem exists_keyword_of_mem_builtinTypes {x : String} (h : x ∈ builtinTypes) :
    ∃ word : Keyword, x = word.text := by
  rcases List.mem_cons.1 h with rfl | h
  · exact ⟨.integer, rfl⟩
  · rw [List.mem_singleton.1 h]
    exact ⟨.real, rfl⟩

theorem exists_keyword_of_typeWord {kind : Kind} (h : Grammar.TypeWord kind) :
    ∃ word : Keyword, kind = .keyword word ∧ word.text ∈ builtinTypes := by
  cases h with
  | integer => exact ⟨.integer, rfl, List.mem_cons_self⟩
  | real => exact ⟨.real, rfl, List.mem_cons_of_mem _ List.mem_cons_self⟩

section

open Grammar

variable {line line' : Nat} {text rest : List Char} {ts : List Token}

theorem not_mem_builtinTypes_of_name (hs : Scans line text ts line' rest) {t : Token} (ht : t ∈ ts)
    (hk : t.kind = .name) : t.text ∉ builtinTypes := by
  intro hmem
  obtain ⟨word, hword⟩ := exists_keyword_of_mem_builtinTypes hmem
  exact hs.not_reserved t ht hk word hword

theorem mem_builtinTypes_of_typeWritten (hs : Scans line text ts line' rest) {type : Name}
    (h : TypeWritten ts type) : type.text ∈ builtinTypes := by
  obtain ⟨t, ht, hk, rfl⟩ := h
  obtain ⟨word, hword, hmem⟩ := exists_keyword_of_typeWord hk
  have htext : t.text = word.text := hs.spelled t ht word hword
  exact htext ▸ hmem

theorem isOrdinary_binding (hs : Scans line text ts line' rest) {b : Binding}
    (h : BindingWritten ts b) : b.symbol.IsOrdinary := by
  obtain ⟨⟨t, ht, hk, hname⟩, htype⟩ := h
  have htext : b.symbol.name = t.text := congrArg Name.text hname
  refine ⟨?_, rfl, fun type h => ?_⟩
  · rw [htext]
    exact not_mem_builtinTypes_of_name hs ht hk
  · cases h
    exact mem_builtinTypes_of_typeWritten hs htype

theorem isOrdinary_of_declaresOn (hs : Scans line text ts line' rest) {symbol : Symbol} {l : Nat}
    (h : DeclaresOn ts symbol l) : symbol.IsOrdinary := by
  rcases h.written with ⟨b, rfl, -, hb⟩ | ⟨_, -, name, hmem, parameters, hk, rfl, -⟩
  · exact isOrdinary_binding hs hb
  · exact ⟨not_mem_builtinTypes_of_name hs hmem hk, rfl, fun type h => nomatch h⟩

theorem respects_of_backed (hs : Scans line text ts line' rest) {a : Action} (h : Backed ts a) :
    a.Respects := by
  cases a with
  | checkType index type => exact mem_builtinTypes_of_typeWritten hs h
  | define index symbol l => exact isOrdinary_of_declaresOn hs h
  | checkName index name =>
    obtain ⟨t, ht, hk, rfl⟩ := h
    exact not_mem_builtinTypes_of_name hs ht hk
  | enterProgram program => trivial
  | enterProcedure outer name => trivial
  | leave index => trivial

end

/-- The actions of a program that was read leave the built-in types alone. -/
theorem respects_of_ofSource {source : String} {p : Program} (h : Program.ofSource source = .ok p) :
    ∀ a ∈ programActions p, a.Respects := by
  obtain ⟨ts, line, hc, -, hp⟩ := Grammar.ofSource_eq_ok_iff_completes.1 h
  intro a ha
  exact respects_of_backed hc.scans (hp.backed a ha)

/-! ## Scopes -/

/-- The scopes of a program with the built-in types in their place. -/
structure Intact (p : Program) (arena : Arena) : Prop where
  /-- The outermost scope binds the names of the built-in types to these. -/
  outermost : ∃ s, arena.get? 0 = some s ∧ ∀ x ∈ builtinTypes, s.lookup? x = some ⟨x, .builtin⟩
  /-- No other scope binds them. -/
  others : ∀ i s, arena.get? i = some s → i ≠ 0 → ∀ x ∈ builtinTypes, s.lookup? x = none
  /-- A variable has the type with which it is declared in its scope, a built-in one. -/
  typed : ∀ i s x symbol type, arena.get? i = some s → s.lookup? x = some symbol →
    symbol.meaning = .variable type →
      type ∈ builtinTypes ∧ ∃ o, p.outlines[i]? = some o ∧ symbol ∈ o.symbols

section

variable {as : List Action} {i : Nat} {s : Scope} {x : String} {symbol : Symbol}

theorem isOrdinary_of_mem_definedIn (hrespects : ∀ a ∈ as, a.Respects)
    (h : symbol ∈ definedIn i as) : symbol.IsOrdinary := by
  obtain ⟨a, ha, hsome⟩ := List.mem_filterMap.1 h
  cases a with
  | define j symbol' line =>
    obtain ⟨-, hsame⟩ := Option.ite_none_right_eq_some.1 hsome
    rw [← Option.some.inj hsame]
    exact hrespects _ ha
  | enterProgram => cases hsome
  | enterProcedure => cases hsome
  | checkType => cases hsome
  | checkName => cases hsome
  | leave => cases hsome

theorem builtin_of_mem_builtinSymbols {parent : Option Nat}
    (h : symbol ∈ builtinSymbols parent) :
    symbol.meaning = .builtin ∧ symbol.name ∈ builtinTypes := by
  cases parent with
  | some outer => cases h
  | none =>
    obtain ⟨type, htype, rfl⟩ := List.mem_map.1 h
    exact ⟨rfl, htype⟩

/-- What a scope binds is a built-in type under its own name, or it may be declared in a program. -/
theorem builtin_or_ordinary (horder : InOrder 0 as) (hrespects : ∀ a ∈ as, a.Respects)
    (hs : (State.initial.after as).arena.get? i = some s) (hx : s.lookup? x = some symbol) :
    x = symbol.name ∧ (symbol ∈ builtinSymbols s.parent ∨ symbol.IsOrdinary) := by
  obtain ⟨o, ho, hmatches⟩ := (mirrors_after horder).scope i s hs
  obtain ⟨entry, -, rfl⟩ := Option.map_eq_some_iff.1 ho
  rw [hmatches.lookup] at hx
  obtain ⟨hmem, hname⟩ := mem_of_latest? hx
  refine ⟨hname.symm, ?_⟩
  rw [hmatches.parent]
  rcases List.mem_append.1 hmem with hmem | hmem
  · exact .inl hmem
  · exact .inr (isOrdinary_of_mem_definedIn hrespects hmem)

/-- The names of the built-in types are bound in a scope as they were in the beginning. -/
theorem lookup?_builtin (horder : InOrder 0 as) (hrespects : ∀ a ∈ as, a.Respects)
    (hs : (State.initial.after as).arena.get? i = some s) (hx : x ∈ builtinTypes) :
    s.lookup? x = latest? (builtinSymbols s.parent) x := by
  obtain ⟨o, ho, hmatches⟩ := (mirrors_after horder).scope i s hs
  obtain ⟨entry, -, rfl⟩ := Option.map_eq_some_iff.1 ho
  rw [hmatches.lookup, hmatches.parent]
  refine latest?_append fun symbol hsymbol hname => ?_
  rw [← hname] at hx
  exact (isOrdinary_of_mem_definedIn hrespects hsymbol).name hx

theorem latest?_builtinSymbols_none (hx : x ∈ builtinTypes) :
    latest? (builtinSymbols none) x = some ⟨x, .builtin⟩ := by
  rw [← (Scope.matches_create "" 0 none).lookup, Scope.lookup?_create_none, if_pos hx]

/-- Seen from anywhere, a built-in type is found in the outermost scope. -/
theorem resolve?_builtin (horder : InOrder 0 as) (hrespects : ∀ a ∈ as, a.Respects)
    (hi : i < (State.initial.after as).arena.size) (hx : x ∈ builtinTypes) :
    (State.initial.after as).arena.resolve? i x = some (0, ⟨x, .builtin⟩) := by
  have hmirrors := mirrors_after horder
  induction i using Nat.strongRecOn with
  | ind i ih =>
    obtain ⟨s, o, hget, -, -⟩ := hmirrors.found hi
    have hlook := lookup?_builtin horder hrespects hget hx
    rw [Arena.resolve?, hget]
    -- every scope but the outermost one leaves the name to an older one
    rcases hmirrors.parent horder hget with ⟨rfl, hnone⟩ | ⟨outer, hlt, hsome⟩
    · rw [hnone, latest?_builtinSymbols_none hx] at hlook
      simp only [hlook]
    · rw [hsome] at hlook
      have hnothing : s.lookup? x = none := hlook
      simp only [hnothing, hsome, if_pos hlt]
      exact ih outer hlt (by omega)

end

/-- After any actions of a program that leave the built-in types alone, these are in their place. -/
theorem intact_after {p : Program} {before after : List Action}
    (hsplit : programActions p = before ++ after) (hne : before ≠ [])
    (hrespects : ∀ a ∈ before, a.Respects) : Intact p (State.initial.after before).arena := by
  have horder : InOrder 0 before := by
    have hall := inOrder_programActions p
    rw [hsplit] at hall
    exact (inOrder_append.1 hall).1
  have hmirrors := mirrors_after horder
  refine ⟨?_, fun i s hs hi x hx => ?_, fun i s x symbol type hs hx htype => ?_⟩
  · have hsize : 0 < (State.initial.after before).arena.size := by
      -- the first action of a program creates its outermost scope
      cases before with
      | nil => exact absurd rfl hne
      | cons a more =>
        obtain ⟨rfl, -⟩ := List.cons.inj hsplit
        rw [hmirrors.size, entries_cons, List.length_append]
        exact Nat.lt_add_right _ Nat.one_pos
    obtain ⟨s, -, hs, -, -⟩ := hmirrors.found hsize
    refine ⟨s, hs, fun x hx => ?_⟩
    rcases hmirrors.parent horder hs with ⟨-, hnone⟩ | ⟨outer, hlt, -⟩
    · rw [lookup?_builtin horder hrespects hs hx, hnone, latest?_builtinSymbols_none hx]
    · exact absurd hlt (Nat.not_lt_zero outer)
  · rcases hmirrors.parent horder hs with ⟨hzero, -⟩ | ⟨outer, -, hsome⟩
    · exact absurd hzero hi
    · rw [lookup?_builtin horder hrespects hs hx, hsome]
      rfl
  · obtain ⟨o, ho, hmatches⟩ := hmirrors.scope i s hs
    obtain ⟨symbols, hall⟩ : ∃ symbols, outline? (before ++ after) i =
        some ⟨o.name, o.parent, o.symbols ++ symbols⟩ := outline?_append ho
    rw [← hsplit, outline?_programActions] at hall
    have hmem : symbol ∈ o.symbols := by
      rw [hmatches.lookup] at hx
      exact (mem_of_latest? hx).1
    refine ⟨?_, _, hall, List.mem_append_left _ hmem⟩
    rcases (builtin_or_ordinary horder hrespects hs hx).2 with hbuiltin | hordinary
    · rw [(builtin_of_mem_builtinSymbols hbuiltin).1] at htype
      cases htype
    · exact hordinary.typed type htype

/-! ## Errors and used names -/

/-- An action that leaves the built-in types alone is not refused for one of their names, nor for
naming no type. -/
theorem name_of_refused {policy : Policy} {as : List Action} {a : Action} {cause : ScopeError}
    (horder : InOrder 0 (as ++ [a])) (hrespects : ∀ b ∈ as, b.Respects) (ha : a.Respects)
    (h : a.Refused policy (State.initial.after as).arena cause) :
    (∀ name line, cause ≠ .unknownType name line) ∧ cause.name ∉ builtinTypes := by
  obtain ⟨hbefore, hfits, -⟩ := inOrder_append.1 horder
  cases h with
  | @noType index type none =>
    have hindex : index < (State.initial.after as).arena.size := by
      rw [size_after]
      exact hfits
    rw [resolve?_builtin hbefore hrespects hindex ha] at none
    cases none
  | repeated _ _ _ => exact ⟨fun _ _ h => (nomatch h), ha.name⟩
  | unknown _ => exact ⟨fun _ _ h => (nomatch h), ha⟩

theorem exists_of_mem_events {a : Action} {arena : Arena} {found : Resolution}
    (h : .resolve found ∈ a.events arena) :
    ∃ index owner symbol, a = .checkName index ⟨found.name, found.line⟩ ∧
      arena.resolve? index found.name = some (owner, symbol) := by
  cases a with
  | checkName index name =>
    obtain ⟨⟨owner, symbol⟩, hresolve, h⟩ := Option.bind_eq_some_iff.1 (Option.mem_toList.1 h)
    obtain ⟨scope, -, h⟩ := Option.map_eq_some_iff.1 h
    cases h
    exact ⟨index, owner, symbol, rfl, hresolve⟩
  | define index symbol line =>
    rw [Action.events] at h
    cases hget : arena.get? index with
    | none =>
      rw [hget] at h
      cases h
    | some scope =>
      rw [hget] at h
      rcases List.mem_cons.1 h with h | h
      · cases h
      · obtain ⟨previous, -, h⟩ := Option.map_eq_some_iff.1 (Option.mem_toList.1 h)
        cases h
  | leave index =>
    obtain ⟨scope, -, h⟩ := Option.map_eq_some_iff.1 (Option.mem_toList.1 h)
    cases h
  | enterProgram program => cases List.mem_singleton.1 h
  | enterProcedure outer name => cases List.mem_singleton.1 h
  | checkType index type => cases h

theorem mem_resolutions_iff {s : State} {found : Resolution} :
    found ∈ s.resolutions ↔ .resolve found ∈ s.events.toList := by
  rw [State.resolutions, List.mem_filterMap]
  constructor
  · rintro ⟨event, hmem, h⟩
    cases event with
    | resolve found' =>
      cases h
      exact hmem
    | _ => cases h
  · exact fun hmem => ⟨_, hmem, rfl⟩

/-- A name that has been found was found by one of the actions, in the scopes at that time. -/
theorem exists_of_mem_resolutions {as : List Action} {found : Resolution}
    (h : found ∈ (State.initial.after as).resolutions) :
    ∃ before index after owner symbol,
      as = before ++ .checkName index ⟨found.name, found.line⟩ :: after ∧
      (State.initial.after before).arena.resolve? index found.name = some (owner, symbol) := by
  -- a name was found by the last action or by one before it
  induction as using List.reverseRecOn with
  | nil => cases h
  | append_singleton as a ih =>
    rw [State.after_append, mem_resolutions_iff] at h
    rcases List.mem_append.1 (Array.toList_append ▸ h) with hbefore | hlast
    · obtain ⟨before, index, after, owner, symbol, rfl, hresolve⟩ :=
        ih (mem_resolutions_iff.2 hbefore)
      exact ⟨before, index, after ++ [a], owner, symbol, by simp, hresolve⟩
    · obtain ⟨index, owner, symbol, rfl, hresolve⟩ := exists_of_mem_events hlast
      exact ⟨as, index, [], owner, symbol, rfl, hresolve⟩

theorem isType_of_resolve? {as : List Action} {index owner : Nat} {x : String} {symbol : Symbol}
    (horder : InOrder 0 as) (hrespects : ∀ a ∈ as, a.Respects) (hx : x ∉ builtinTypes)
    (h : (State.initial.after as).arena.resolve? index x = some (owner, symbol)) :
    symbol.isType = false := by
  obtain ⟨s, hs, hlook⟩ := Arena.lookup?_of_resolve? h
  obtain ⟨hname, hbuiltin | hordinary⟩ := builtin_or_ordinary horder hrespects hs hlook
  · rw [hname] at hx
    exact absurd (builtin_of_mem_builtinSymbols hbuiltin).2 hx
  · exact hordinary.notType

/-! ## Programs that were read -/

/-- The state in which a part of the walk ends, well or with an error. -/
def endOf (walk : Walk) (s : State) : State :=
  match walk s with
  | .ok _ s' => s'
  | .error _ s' => s'

/-- Some actions of a program, at least one, end in the state after actions, at least one. -/
theorem exists_endOf {p : Program} {before after : List Action}
    (hsplit : programActions p = before ++ after) (hne : before ≠ []) (policy : Policy) :
    ∃ done, done ≠ [] ∧ done <+: programActions p ∧
      endOf (perform policy before) .initial = State.initial.after done := by
  cases before with
  | nil => exact absurd rfl hne
  | cons a more =>
    obtain ⟨rfl, -⟩ := List.cons.inj hsplit
    obtain ⟨done, hdone, hends⟩ :=
      exists_after policy more ((Action.enterProgram p.name).step .initial)
    have hprefix : (.enterProgram p.name :: done) <+: .enterProgram p.name :: more ++ after :=
      ((List.prefix_cons_inj _).2 hdone).trans (List.prefix_append _ _)
    refine ⟨.enterProgram p.name :: done, List.cons_ne_nil _ _, hsplit ▸ hprefix, ?_⟩
    rw [endOf, perform_cons_of_accepted rfl]
    rcases hends with hok | ⟨cause, herror⟩
    · rw [hok]
      rfl
    · rw [herror]
      rfl

end Analysis

namespace Analyzer

open Analysis

variable {policy : Policy} {source : String} {p : Program}

theorem name_of_error (h : Program.ofSource source = .ok p) {earlier : State} {cause : ScopeError}
    (herror : ((⟨policy, earlier⟩ : Analyzer).analyze p).1 = .error cause) :
    (∀ name line, cause ≠ .unknownType name line) ∧ cause.name ∉ builtinTypes := by
  have hrespects := respects_of_ofSource h
  have horder := inOrder_programActions p
  obtain ⟨before, a, after, hsplit, hrefused⟩ := exists_refused herror
  rw [hsplit] at hrespects
  rw [hsplit, ← List.singleton_append, ← List.append_assoc] at horder
  exact name_of_refused (inOrder_append.1 horder).1
    (fun b hb => hrespects b (List.mem_append_left _ hb))
    (hrespects a (List.mem_append_right _ List.mem_cons_self)) hrefused

/-- An analysis ends in the state after some actions of the program, none of which is refused. -/
theorem exists_done (policy : Policy) (earlier : State) (p : Program) :
    ∃ done rest, programActions p = done ++ rest ∧
      perform policy done .initial = .ok () (State.initial.after done) ∧
      ((⟨policy, earlier⟩ : Analyzer).analyze p).2.state = State.initial.after done := by
  rcases perform_cases policy (programActions p) .initial with hok |
    ⟨before, a, after, cause, hsplit, hbefore, -, hends⟩
  · exact ⟨programActions p, [], (List.append_nil _).symm, hok, by rw [analyze_of_ok earlier hok]⟩
  · exact ⟨before, a :: after, hsplit, hbefore, by rw [analyze_of_error earlier hends]⟩

/-- A used name that was found was looked up by an action, and what was found for it is no type. -/
theorem exists_of_found (h : Program.ofSource source = .ok p) {earlier : State} {found : Resolution}
    (hfound : found ∈ ((⟨policy, earlier⟩ : Analyzer).analyze p).2.state.resolutions) :
    found.name ∉ builtinTypes ∧
      ∃ before index after s owner symbol,
        programActions p = before ++ .checkName index ⟨found.name, found.line⟩ :: after ∧
        perform policy before .initial = .ok () s ∧
        s.arena.resolve? index found.name = some (owner, symbol) ∧ symbol.isType = false := by
  have hrespects := respects_of_ofSource h
  have horder := inOrder_programActions p
  obtain ⟨done, rest, hsplit, hdone, hstate⟩ := exists_done policy earlier p
  rw [hstate] at hfound
  obtain ⟨before, index, after, owner, symbol, rfl, hresolve⟩ := exists_of_mem_resolutions hfound
  rw [List.append_assoc] at hsplit
  rw [hsplit] at horder hrespects
  have hname : found.name ∉ builtinTypes :=
    hrespects (.checkName index ⟨found.name, found.line⟩) (by simp)
  -- the actions before the one that found the name were performed, since it was performed itself
  have hbefore : perform policy before .initial = .ok () (State.initial.after before) := by
    rw [perform_append] at hdone
    cases hb : perform policy before .initial with
    | ok _ s => rw [eq_after_of_perform hb]
    | error cause s =>
      rw [hb] at hdone
      cases hdone
  have htype : symbol.isType = false :=
    isType_of_resolve? (inOrder_append.1 horder).1
      (fun a ha => hrespects a (List.mem_append_left _ ha)) hname hresolve
  exact ⟨hname, before, index, after ++ rest, _, owner, symbol, hsplit, hbefore, hresolve, htype⟩

/-- In every state that actions of a program end in, the built-in types are in their place. -/
theorem intact_endOf (h : Program.ofSource source = .ok p) {before after : List Action}
    (hsplit : programActions p = before ++ after) (hne : before ≠ []) :
    Intact p (endOf (perform policy before) .initial).arena := by
  obtain ⟨done, hdone, ⟨rest, hrest⟩, hends⟩ := exists_endOf hsplit hne policy
  have hrespects : ∀ a ∈ done, a.Respects := by
    intro a ha
    refine respects_of_ofSource h a ?_
    rw [← hrest]
    exact List.mem_append_left rest ha
  rw [hends]
  exact intact_after hrest.symm hdone hrespects

theorem endOf_programActions (earlier : State) :
    endOf (perform policy (programActions p)) .initial =
      ((⟨policy, earlier⟩ : Analyzer).analyze p).2.state := by
  rw [endOf]
  cases hp : perform policy (programActions p) .initial with
  | ok _ s => rw [analyze_of_ok earlier hp]
  | error cause s => rw [analyze_of_error earlier hp]

/-- The names of the built-in types cannot be taken by a program that was read. Under either policy
and whatever was analysed before:

* an error is never one for an unknown type, and it is never about the name of a built-in type;
* a used name that was found is not the name of a built-in type, and at the time when it was looked
  up the symbol found for it was no type;
* the analysis performs the actions of the program one after another, and in whatever state one of
  them ends, the built-in types are bound in the outermost scope and in no other one, and every
  variable has the type of one of its declarations, a built-in one. -/
theorem builtins_unassailable (policy : Policy) (earlier : State) (source : String) (p : Program)
    (h : Program.ofSource source = .ok p) :
    (∀ cause, ((⟨policy, earlier⟩ : Analyzer).analyze p).1 = .error cause →
      (∀ name line, cause ≠ .unknownType name line) ∧ cause.name ∉ builtinTypes) ∧
    (∀ found ∈ ((⟨policy, earlier⟩ : Analyzer).analyze p).2.state.resolutions,
      found.name ∉ builtinTypes ∧
      ∃ before index after s owner symbol,
        programActions p = before ++ .checkName index ⟨found.name, found.line⟩ :: after ∧
        perform policy before .initial = .ok () s ∧
        s.arena.resolve? index found.name = some (owner, symbol) ∧ symbol.isType = false) ∧
    Intact p ((⟨policy, earlier⟩ : Analyzer).analyze p).2.state.arena ∧
    checkProgram policy p .initial = perform policy (programActions p) .initial ∧
    ∀ before after, programActions p = before ++ after → before ≠ [] →
      Intact p (endOf (perform policy before) .initial).arena := by
  refine ⟨fun cause => name_of_error h, fun found => exists_of_found h, ?_,
    checkProgram_eq_perform policy p, fun before after => intact_endOf h⟩
  rw [← endOf_programActions earlier]
  exact intact_endOf h (List.append_nil _).symm (List.cons_ne_nil _ _)

/-- A program that declares variables of both types in two scopes and uses a name that it does not
declare. -/
def typedScopes : String :=
  "PROGRAM p; VAR a : INTEGER; PROCEDURE q(b : REAL); VAR a : REAL; BEGIN a := b END; " ++
    "BEGIN a := c END."

theorem builtins_unassailable_sample :
    ∃ p, Program.ofSource typedScopes = .ok p ∧
      ((⟨.reject, .initial⟩ : Analyzer).analyze p).1 = .error (.unknownName "c" 1) ∧
      "c" ∉ builtinTypes ∧ Intact p ((⟨.reject, .initial⟩ : Analyzer).analyze p).2.state.arena := by
  have hread : (Program.ofSource typedScopes).toOption.map
      (fun p => ((⟨.reject, .initial⟩ : Analyzer).analyze p).1) =
        some (.error (.unknownName "c" 1)) := by decide +kernel
  obtain ⟨p, hoption, herror⟩ := Option.map_eq_some_iff.1 hread
  have hp : Program.ofSource typedScopes = .ok p := by
    cases hsource : Program.ofSource typedScopes with
    | error cause =>
      rw [hsource] at hoption
      cases hoption
    | ok p' =>
      rw [hsource] at hoption
      cases hoption
      rfl
  have key := builtins_unassailable .reject .initial typedScopes p hp
  exact ⟨p, hp, herror, (key.1 _ herror).2, key.2.2.1⟩

end Analyzer

end PocketPascal
