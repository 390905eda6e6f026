import PocketPascal.Proofs.Scope.Outlines

/-!
# The nearest scope that has a name

The links of an arena lead from a scope outwards, and a name is resolved in the nearest scope along
them whose own table has it. This holds of every arena that is built by creating scopes, anywhere
inside older ones or on their own, and by defining symbols in them, in any order: every link goes to
an older scope, so the chain of links comes to an end, and what a table says about a name is the
last symbol of the name that was defined there. A new scope changes nothing for the older ones, and
a definition shows exactly where the search for its name comes to the scope that it was made in.
-/

namespace PocketPascal

namespace Arena

/-- The symbol of a name in the table of one scope. -/
def lookup? (a : Arena) (i : Nat) (x : String) : Option Symbol :=
  (a.get? i).bind fun s => s.lookup? x

/-- Every link goes to an older scope. -/
def Linked (a : Arena) : Prop := ∀ i s, a.get? i = some s → ∀ parent ∈ s.parent, parent < i

/-- The scopes along the links from a start, the nearest first, to one that has none around it. -/
inductive Chain (a : Arena) : Option Nat → List Nat → Prop where
  /-- There is nothing around the last scope. -/
  | nothing : Chain a none []
  /-- A scope, and the scopes around it. -/
  | scope {i : Nat} {s : Scope} {outer : List Nat} (found : a.get? i = some s)
      (around : Chain a s.parent outer) : Chain a (some i) (i :: outer)

/-- The search for a name along a chain comes to a scope: it is on the chain, and no nearer scope
has the name. -/
def Reaches (a : Arena) (chain : List Nat) (x : String) (i : Nat) : Prop :=
  ∃ nearer farther, chain = nearer ++ i :: farther ∧ ∀ j ∈ nearer, a.lookup? j x = none

section

variable {a b : Arena} {start : Option Nat} {chain : List Nat} {i : Nat} {x : String}

/-! ## Tables and links after a push and after a definition -/

theorem lookup?_of_get? {s : Scope} (h : a.get? i = some s) : a.lookup? i x = s.lookup? x := by
  unfold lookup?
  rw [h, Option.bind_some]

theorem get?_push_of_lt (h : i < a.size) (name : String) (level : Nat) (parent : Option Nat) :
    (a.push name level parent).get? i = a.get? i := by
  have hne : i ≠ a.size := by omega
  rw [get?_push, if_neg hne]

/-- A definition changes one name in one table. -/
theorem lookup?_define (h : i < a.size) (j : Nat) (symbol : Symbol) :
    (a.define j symbol).lookup? i x =
      if j = i ∧ symbol.name = x then some symbol else a.lookup? i x := by
  obtain ⟨s, hs⟩ : ∃ s, a.get? i = some s := ⟨_, Array.getElem?_eq_getElem h⟩
  unfold lookup?
  rw [get?_define, hs]
  by_cases hj : j = i
  · rw [if_pos hj, Option.map_some, Option.bind_some, Option.bind_some, Scope.lookup?_define]
    simp only [hj, true_and]
  · have hother : ¬(j = i ∧ symbol.name = x) := fun both => hj both.1
    rw [if_neg hj, if_neg hother]

theorem parent_define (j : Nat) (symbol : Symbol) (i : Nat) :
    ((a.define j symbol).get? i).map Scope.parent = (a.get? i).map Scope.parent := by
  rw [get?_define]
  split
  · rw [Option.map_map]
    rfl
  · rfl

theorem Linked.push (h : a.Linked) {parent : Option Nat}
    (hparent : ∀ outer ∈ parent, outer < a.size) (name : String) (level : Nat) :
    (a.push name level parent).Linked := by
  intro i s hs outer houter
  rw [get?_push] at hs
  by_cases hi : i = a.size
  · rw [if_pos hi] at hs
    cases hs
    have hlink : (Scope.create name level parent).parent = parent :=
      (Scope.matches_create name level parent).parent
    rw [hlink] at houter
    rw [hi]
    exact hparent outer houter
  · rw [if_neg hi] at hs
    exact h i s hs outer houter

theorem Linked.define (h : a.Linked) (j : Nat) (symbol : Symbol) : (a.define j symbol).Linked := by
  intro i s hs outer houter
  have hsame := parent_define (a := a) j symbol i
  rw [hs, Option.map_some] at hsame
  obtain ⟨s', hs', hparent⟩ := Option.map_eq_some_iff.1 hsame.symm
  rw [← hparent] at houter
  exact h i s' hs' outer houter

/-! ## Chains -/

theorem Linked.exists_chain (h : a.Linked) (hi : i < a.size) : ∃ chain, a.Chain (some i) chain := by
  induction i using Nat.strongRecOn with
  | ind i ih =>
    obtain ⟨s, hs⟩ : ∃ s, a.get? i = some s := ⟨_, Array.getElem?_eq_getElem hi⟩
    obtain ⟨outer, houter⟩ : ∃ outer, a.Chain s.parent outer := by
      cases hparent : s.parent with
      | none => exact ⟨[], .nothing⟩
      | some parent =>
        have hlt : parent < i := h i s hs parent hparent
        exact ih parent hlt (by omega)
    exact ⟨i :: outer, .scope hs houter⟩

theorem Chain.lt_size (h : a.Chain start chain) : ∀ j ∈ chain, j < a.size := by
  induction h with
  | nothing => intro j hj; cases hj
  | @scope i s outer found around ih =>
    intro j hj
    rcases List.mem_cons.1 hj with rfl | hj
    · exact lt_size_of_get? found
    · exact ih j hj

/-- A chain goes from younger to older scopes. -/
theorem Chain.descends (h : a.Chain start chain) (hl : a.Linked) :
    chain.Pairwise (· > ·) ∧ ∀ i ∈ start, ∀ j ∈ chain, j ≤ i := by
  induction h with
  | nothing => exact ⟨List.Pairwise.nil, fun i hi => nomatch hi⟩
  | @scope i s outer found around ih =>
    obtain ⟨hsorted, hle⟩ := ih
    have hlt : ∀ j ∈ outer, j < i := by
      intro j hj
      cases hparent : s.parent with
      | none =>
        rw [hparent] at around
        cases around
        cases hj
      | some parent =>
        have hbelow : j ≤ parent := hle parent hparent j hj
        have hlink : parent < i := hl i s found parent hparent
        omega
    refine ⟨List.pairwise_cons.2 ⟨hlt, hsorted⟩, ?_⟩
    intro k hk j hj
    cases hk
    rcases List.mem_cons.1 hj with rfl | hj
    · exact Nat.le_refl j
    · exact Nat.le_of_lt (hlt j hj)

/-- A chain is one in every arena that has the same links. -/
theorem Chain.congr (h : a.Chain start chain)
    (same : ∀ j < a.size, (b.get? j).map Scope.parent = (a.get? j).map Scope.parent) :
    b.Chain start chain := by
  induction h with
  | nothing => exact .nothing
  | @scope i s outer found around ih =>
    have hlink := same i (lt_size_of_get? found)
    rw [found, Option.map_some] at hlink
    obtain ⟨t, ht, hparent⟩ := Option.map_eq_some_iff.1 hlink
    rw [← hparent] at ih
    exact .scope ht ih

theorem Chain.push (h : a.Chain start chain) (name : String) (level : Nat) (parent : Option Nat) :
    (a.push name level parent).Chain start chain :=
  h.congr fun j hj => by rw [get?_push_of_lt hj]

theorem Chain.define (h : a.Chain start chain) (j : Nat) (symbol : Symbol) :
    (a.define j symbol).Chain start chain :=
  h.congr fun i _ => parent_define j symbol i

/-! ## Resolving along a chain -/

/-- A name is resolved in the first scope of the chain whose table has it. -/
theorem resolve?_eq_findSome? (hl : a.Linked) (h : a.Chain (some i) chain) (x : String) :
    a.resolve? i x = chain.findSome? fun j => (a.lookup? j x).map fun symbol => (j, symbol) := by
  generalize hstart : some i = start at h
  induction h generalizing i with
  | nothing => cases hstart
  | @scope j s outer found around ih =>
    obtain rfl : i = j := Option.some.inj hstart
    have hlookup : a.lookup? i x = s.lookup? x := lookup?_of_get? found
    rw [resolve?, found, List.findSome?_cons, hlookup]
    cases hlook : s.lookup? x with
    | some symbol => simp only [hlook, Option.map_some]
    | none =>
      cases hparent : s.parent with
      | none =>
        rw [hparent] at around
        cases around
        simp only [hlook, hparent, Option.map_none, List.findSome?_nil]
      | some parent =>
        -- the link goes to an older scope, so it is followed
        have hlt : parent < i := hl i s found parent hparent
        simp only [hlook, hparent, if_pos hlt, Option.map_none]
        exact ih hparent.symm

theorem resolve?_eq_some_iff (hl : a.Linked) (h : a.Chain (some i) chain) {owner : Nat}
    {symbol : Symbol} :
    a.resolve? i x = some (owner, symbol) ↔
      a.Reaches chain x owner ∧ a.lookup? owner x = some symbol := by
  rw [resolve?_eq_findSome? hl h, List.findSome?_eq_some_iff]
  constructor
  · rintro ⟨nearer, j, farther, hchain, hfound, hnone⟩
    obtain ⟨found, hlook, heq⟩ := Option.map_eq_some_iff.1 hfound
    cases heq
    refine ⟨⟨nearer, farther, hchain, ?_⟩, hlook⟩
    intro k hk
    exact Option.map_eq_none_iff.1 (hnone k hk)
  · rintro ⟨⟨nearer, farther, hchain, hnone⟩, hlook⟩
    refine ⟨nearer, owner, farther, hchain, ?_, ?_⟩
    · rw [hlook, Option.map_some]
    · intro k hk
      rw [hnone k hk, Option.map_none]

theorem resolve?_eq_none_iff (hl : a.Linked) (h : a.Chain (some i) chain) :
    a.resolve? i x = none ↔ ∀ j ∈ chain, a.lookup? j x = none := by
  rw [resolve?_eq_findSome? hl h, List.findSome?_eq_none_iff]
  exact forall₂_congr fun j _ => Option.map_eq_none_iff

/-- A name is resolved alike in two arenas if the tables along the chain agree on it. -/
theorem resolve?_congr (ha : a.Linked) (hb : b.Linked) (h : a.Chain (some i) chain)
    (h' : b.Chain (some i) chain) (same : ∀ j ∈ chain, b.lookup? j x = a.lookup? j x) :
    b.resolve? i x = a.resolve? i x := by
  cases hr : a.resolve? i x with
  | none =>
    rw [resolve?_eq_none_iff ha h] at hr
    rw [resolve?_eq_none_iff hb h']
    intro j hj
    rw [same j hj, hr j hj]
  | some found =>
    obtain ⟨owner, symbol⟩ := found
    obtain ⟨⟨nearer, farther, rfl, hnone⟩, hlook⟩ := (resolve?_eq_some_iff ha h).1 hr
    refine (resolve?_eq_some_iff hb h').2 ⟨⟨nearer, farther, rfl, ?_⟩, ?_⟩
    · intro j hj
      rw [same j (List.mem_append_left _ hj), hnone j hj]
    · rw [same owner (List.mem_append_right _ List.mem_cons_self), hlook]

theorem resolve?_push (hl : a.Linked) (hi : i < a.size) {parent : Option Nat}
    (hparent : ∀ outer ∈ parent, outer < a.size) (name : String) (level : Nat) :
    (a.push name level parent).resolve? i x = a.resolve? i x := by
  obtain ⟨chain, hchain⟩ := hl.exists_chain hi
  refine resolve?_congr hl (hl.push hparent name level) hchain (hchain.push name level parent) ?_
  intro j hj
  unfold lookup?
  rw [get?_push_of_lt (hchain.lt_size j hj)]

section

variable {j : Nat} {symbol : Symbol}

/-- A definition that the search for its name comes to is what the name is resolved to. -/
theorem resolve?_define_of_reaches (hl : a.Linked) (h : a.Chain (some i) chain)
    (hname : symbol.name = x) (hr : a.Reaches chain x j) :
    (a.define j symbol).resolve? i x = some (j, symbol) := by
  obtain ⟨nearer, farther, rfl, hnone⟩ := hr
  have hbound := h.lt_size
  have hdistinct : ∀ k ∈ nearer, k > j := by
    intro k hk
    have hsorted := (List.pairwise_append.1 (h.descends hl).1).2.2
    exact hsorted k hk j List.mem_cons_self
  refine (resolve?_eq_some_iff (hl.define j symbol) (h.define j symbol)).2
    ⟨⟨nearer, farther, rfl, ?_⟩, ?_⟩
  · intro k hk
    have hother : ¬(j = k ∧ symbol.name = x) := by
      have := hdistinct k hk
      omega
    rw [lookup?_define (hbound k (List.mem_append_left _ hk)), if_neg hother, hnone k hk]
  · have hj : j < a.size := hbound j (List.mem_append_right _ List.mem_cons_self)
    rw [lookup?_define hj, if_pos ⟨rfl, hname⟩]

/-- Any other definition makes no difference to the name. -/
theorem resolve?_define_of_not_reaches (hl : a.Linked) (h : a.Chain (some i) chain)
    (hr : ¬(symbol.name = x ∧ a.Reaches chain x j)) :
    (a.define j symbol).resolve? i x = a.resolve? i x := by
  have hl' := hl.define j symbol
  have h' := h.define j symbol
  have hbound := h.lt_size
  by_cases hname : symbol.name = x
  · have hunreached : ¬a.Reaches chain x j := fun reached => hr ⟨hname, reached⟩
    cases hresolve : a.resolve? i x with
    | none =>
      rw [resolve?_eq_none_iff hl h] at hresolve
      rw [resolve?_eq_none_iff hl' h']
      intro k hk
      -- a search without result passes through all scopes of the chain
      have hother : j ≠ k := by
        rintro rfl
        obtain ⟨nearer, farther, rfl⟩ := List.append_of_mem hk
        apply hunreached
        exact ⟨nearer, farther, rfl, fun k hk => hresolve k (List.mem_append_left _ hk)⟩
      rw [lookup?_define (hbound k hk), if_neg fun both => hother both.1, hresolve k hk]
    | some found =>
      obtain ⟨owner, symbol'⟩ := found
      obtain ⟨⟨nearer, farther, rfl, hnone⟩, hlook⟩ := (resolve?_eq_some_iff hl h).1 hresolve
      have howner : j ≠ owner := by
        rintro rfl
        exact hunreached ⟨nearer, farther, rfl, hnone⟩
      have hnearer : ∀ k ∈ nearer, j ≠ k := by
        rintro k hk rfl
        obtain ⟨nearer', between, rfl⟩ := List.append_of_mem hk
        apply hunreached
        refine ⟨nearer', between ++ owner :: farther, by simp, ?_⟩
        intro k hk
        exact hnone k (List.mem_append_left _ hk)
      refine (resolve?_eq_some_iff hl' h').2 ⟨⟨nearer, farther, rfl, ?_⟩, ?_⟩
      · intro k hk
        have hk' : k < a.size := hbound k (List.mem_append_left _ hk)
        rw [lookup?_define hk', if_neg fun both => hnearer k hk both.1, hnone k hk]
      · have ho : owner < a.size := hbound owner (List.mem_append_right _ List.mem_cons_self)
        rw [lookup?_define ho, if_neg fun both => howner both.1, hlook]
  · refine resolve?_congr hl hl' h h' ?_
    intro k hk
    rw [lookup?_define (hbound k hk), if_neg fun both => hname both.2]

end

end

/-! ## Arenas that are built call by call -/

/-- A call that builds an arena. -/
inductive Call where
  /-- A scope is created, on its own or inside another one. -/
  | push (name : String) (level : Nat) (parent : Option Nat)
  /-- A symbol is defined in a scope. -/
  | define (index : Nat) (symbol : Symbol)

/-- The arena after a call. -/
def Call.run (a : Arena) : Call → Arena
  | push name level parent => a.push name level parent
  | define index symbol => a.define index symbol

/-- The call names no scope but those of an arena with so many scopes. -/
def Call.Fits (size : Nat) : Call → Prop
  | push _ _ parent => ∀ outer ∈ parent, outer < size
  | define index _ => index < size

/-- Calls build an arena, each of them with the scopes that are there at its time. -/
inductive Built : List Call → Arena → Prop where
  /-- Without a call there are no scopes. -/
  | nothing : Built [] empty
  /-- One more call. -/
  | call {calls : List Call} {a : Arena} {c : Call} (before : Built calls a)
      (fits : c.Fits a.size) : Built (calls ++ [c]) (c.run a)

/-- The symbols that calls have defined in a scope, in order. -/
def definedBy (i : Nat) (calls : List Call) : List Symbol :=
  calls.filterMap fun c =>
    match c with
    | .define j symbol => if j = i then some symbol else none
    | .push _ _ _ => none

theorem definedBy_concat_push (i : Nat) (calls : List Call) (name : String) (level : Nat)
    (parent : Option Nat) :
    definedBy i (calls ++ [.push name level parent]) = definedBy i calls := by
  unfold definedBy
  rw [List.filterMap_append]
  exact List.append_nil _

theorem definedBy_concat_define (i : Nat) (calls : List Call) (j : Nat) (symbol : Symbol) :
    definedBy i (calls ++ [.define j symbol]) =
      if j = i then definedBy i calls ++ [symbol] else definedBy i calls := by
  unfold definedBy
  rw [List.filterMap_append]
  by_cases hj : j = i <;> simp [hj]

namespace Built

variable {calls : List Call} {a : Arena}

theorem linked (h : Built calls a) : a.Linked := by
  induction h with
  | nothing => intro i s hs; cases hs
  | @call calls a c before fits ih =>
    cases c with
    | push name level parent => exact ih.push fits name level
    | define index symbol => exact ih.define index symbol

/-- A table has under every name the last symbol that was defined there, the built-in types being
defined first in a scope on its own; and nothing was defined in scopes to come. -/
theorem tables (h : Built calls a) :
    (∀ i s, a.get? i = some s →
      ∀ x, s.lookup? x = latest? (builtinSymbols s.parent ++ definedBy i calls) x) ∧
    ∀ i, a.size ≤ i → definedBy i calls = [] := by
  induction h with
  | nothing => exact ⟨fun i s hs => (nomatch hs), fun _ _ => rfl⟩
  | @call calls a c before fits ih =>
    obtain ⟨htables, hfresh⟩ := ih
    cases c with
    | push name level parent =>
      refine ⟨?_, ?_⟩
      · intro i s hs x
        have hs' : (a.push name level parent).get? i = some s := hs
        rw [get?_push] at hs'
        rw [definedBy_concat_push]
        by_cases hi : i = a.size
        · rw [if_pos hi] at hs'
          cases hs'
          have hnew := Scope.matches_create name level parent
          rw [hfresh i (by omega), List.append_nil, hnew.parent]
          exact hnew.lookup x
        · rw [if_neg hi] at hs'
          exact htables i s hs' x
      · intro i hi
        have hsize : a.size + 1 ≤ i := by
          rw [← size_push a name level parent]
          exact hi
        rw [definedBy_concat_push]
        exact hfresh i (by omega)
    | define index symbol =>
      have hindex : index < a.size := fits
      refine ⟨?_, ?_⟩
      · intro i s hs x
        have hs' : (a.define index symbol).get? i = some s := hs
        rw [get?_define] at hs'
        rw [definedBy_concat_define]
        by_cases hi : index = i
        · rw [if_pos hi] at hs' ⊢
          obtain ⟨s', hs'', rfl⟩ := Option.map_eq_some_iff.1 hs'
          rw [Scope.lookup?_define, Scope.parent_define, ← List.append_assoc, latest?_concat,
            htables i s' hs'']
        · rw [if_neg hi] at hs' ⊢
          exact htables i s hs' x
      · intro i hi
        have hsize : a.size ≤ i := by
          rw [← size_define a index symbol]
          exact hi
        have hne : index ≠ i := by omega
        rw [definedBy_concat_define, if_neg hne]
        exact hfresh i hsize

/-- How names are resolved in an arena that was built by any calls. Every link goes to an older
scope, so from every scope there is a chain of links to an outermost one. Along any such chain,

* a name is resolved to a scope and a symbol exactly if the search for it comes to this scope, and
  the symbol is the last one of the name that was defined there;
* it is resolved to nothing exactly if no scope of the chain has it;
* a new scope makes no difference;
* a definition makes a difference to a name exactly if it is the name of the symbol and the search
  for it comes to the scope of the definition, and the name is then resolved to this scope and
  symbol. -/
theorem nearest_of_built (h : Built calls a) :
    (∀ i s, a.get? i = some s → ∀ parent ∈ s.parent, parent < i) ∧
    (∀ i < a.size, ∃ chain, a.Chain (some i) chain) ∧
    ∀ i chain, a.Chain (some i) chain → chain.Pairwise (· > ·) ∧ ∀ x,
      (∀ owner symbol, a.resolve? i x = some (owner, symbol) ↔
        a.Reaches chain x owner ∧ symbol.name = x ∧ ∃ s, a.get? owner = some s ∧
          s.lookup? x = some symbol ∧
          latest? (builtinSymbols s.parent ++ definedBy owner calls) x = some symbol) ∧
      (a.resolve? i x = none ↔ ∀ j ∈ chain, a.lookup? j x = none) ∧
      (∀ name level parent, (Call.push name level parent).Fits a.size →
        (a.push name level parent).resolve? i x = a.resolve? i x) ∧
      ∀ j symbol, (Call.define j symbol).Fits a.size →
        (symbol.name = x ∧ a.Reaches chain x j →
          (a.define j symbol).resolve? i x = some (j, symbol)) ∧
        (¬(symbol.name = x ∧ a.Reaches chain x j) →
          (a.define j symbol).resolve? i x = a.resolve? i x) := by
  have hlinked := h.linked
  refine ⟨hlinked, fun i hi => hlinked.exists_chain hi, ?_⟩
  intro i chain hchain
  refine ⟨(hchain.descends hlinked).1, fun x => ⟨?_, resolve?_eq_none_iff hlinked hchain, ?_, ?_⟩⟩
  · intro owner symbol
    rw [resolve?_eq_some_iff hlinked hchain]
    constructor
    · rintro ⟨hreaches, hlook⟩
      obtain ⟨s, hs, hsymbol⟩ := Option.bind_eq_some_iff.1 hlook
      have hlatest := h.tables.1 owner s hs x
      rw [hsymbol] at hlatest
      exact ⟨hreaches, (mem_of_latest? hlatest.symm).2, s, hs, hsymbol, hlatest.symm⟩
    · rintro ⟨hreaches, -, s, hs, hsymbol, -⟩
      exact ⟨hreaches, (lookup?_of_get? hs).trans hsymbol⟩
  · intro name level parent hfits
    have hi : i < a.size := by
      cases hchain with
      | scope found _ => exact lt_size_of_get? found
    exact resolve?_push hlinked hi hfits name level
  · intro j symbol _
    refine ⟨?_, resolve?_define_of_not_reaches hlinked hchain⟩
    rintro ⟨hname, hreaches⟩
    exact resolve?_define_of_reaches hlinked hchain hname hreaches

/-- A scope on its own with another one inside it, both with a variable of one name, and one more
scope on its own. -/
def twoRoots : List Call :=
  [.push "global" 1 none, .push "q" 2 (some 0), .define 0 ⟨"a", .variable "INTEGER"⟩,
    .define 1 ⟨"a", .variable "REAL"⟩, .push "other" 1 none]

/-- The inner variable hides the outer one, a new scope does not change that, and neither does
another outer variable of the name; an outer variable of another name is seen from inside. -/
theorem nearest_of_built_sample :
    ∃ a, Built twoRoots a ∧ a.resolve? 1 "a" = some (1, ⟨"a", .variable "REAL"⟩) ∧
      (a.push "r" 3 (some 1)).resolve? 1 "a" = a.resolve? 1 "a" ∧
      (a.define 0 ⟨"a", .variable "REAL"⟩).resolve? 1 "a" = a.resolve? 1 "a" ∧
      (a.define 0 ⟨"b", .variable "REAL"⟩).resolve? 1 "b" = some (0, ⟨"b", .variable "REAL"⟩) := by
  have hbuilt : Built twoRoots (twoRoots.foldl Call.run empty) := by
    have houter : (Call.push "q" 2 (some 0)).Fits 1 := by
      intro outer h
      cases h
      exact Nat.one_pos
    have halone : (Call.push "other" 1 none).Fits 2 := fun outer h => nomatch h
    have hfirst : (Call.push "global" 1 none).Fits 0 := fun outer h => nomatch h
    have hzero : (Call.define 0 ⟨"a", .variable "INTEGER"⟩).Fits 2 := Nat.two_pos
    have hone : (Call.define 1 ⟨"a", .variable "REAL"⟩).Fits 2 := Nat.one_lt_two
    exact ((((Built.nothing.call hfirst).call houter).call hzero).call hone).call halone
  have key := nearest_of_built hbuilt
  generalize ha : twoRoots.foldl Call.run empty = a at hbuilt key
  have hchain : a.Chain (some 1) [1, 0] := by
    subst ha
    exact .scope rfl (.scope rfl .nothing)
  have hsize : a.size = 3 := by
    subst ha
    rfl
  have hinner : ∃ s, a.get? 1 = some s ∧ s.lookup? "a" = some ⟨"a", .variable "REAL"⟩ ∧
      latest? (builtinSymbols s.parent ++ definedBy 1 twoRoots) "a" =
        some ⟨"a", .variable "REAL"⟩ := by
    subst ha
    exact ⟨_, rfl, by decide, by decide⟩
  have hnone : a.lookup? 1 "b" = none := by
    subst ha
    decide
  have hcomes : a.Reaches [1, 0] "a" 1 := ⟨[], [0], rfl, fun j hj => nomatch hj⟩
  have hpasses : a.Reaches [1, 0] "b" 0 := by
    refine ⟨[1], [], rfl, ?_⟩
    intro j hj
    rw [List.mem_singleton.1 hj]
    exact hnone
  have hstops : ¬a.Reaches [1, 0] "a" 0 := by
    rintro ⟨nearer, farther, hsplit, hnearer⟩
    have hmem : 1 ∈ nearer := by
      cases nearer with
      | nil => cases hsplit
      | cons k more =>
        obtain ⟨rfl, -⟩ := List.cons.inj hsplit
        exact List.mem_cons_self
    obtain ⟨s, hs, hsymbol, -⟩ := hinner
    have hfound := lookup?_of_get? (x := "a") hs
    rw [hnearer 1 hmem, hsymbol] at hfound
    cases hfound
  have hzero : (0 : Nat) < a.size := by omega
  obtain ⟨-, ha⟩ := key.2.2 1 [1, 0] hchain
  obtain ⟨hsome, -, hpush, hdefine⟩ := ha "a"
  refine ⟨a, hbuilt, (hsome 1 _).2 ⟨hcomes, rfl, hinner⟩, hpush "r" 3 (some 1) ?_, ?_, ?_⟩
  · intro outer h
    cases h
    omega
  · exact (hdefine 0 _ hzero).2 fun both => hstops both.2
  · exact ((ha "b").2.2.2 0 ⟨"b", .variable "REAL"⟩ hzero).1 ⟨rfl, hpasses⟩

end Built

end Arena

end PocketPascal
