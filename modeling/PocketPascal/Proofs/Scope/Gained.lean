import PocketPascal.Proofs.Scope.OpenScopes

/-!
# Arenas that differ in one name

Two arenas have the same scopes, and their tables agree but for one name in one scope, where the
second arena has a symbol. Whatever is done in both of them alike, they stay so. Every name that is
resolved in the first one is resolved in the second one: in the same scope or, if it is that name,
perhaps in that scope.
-/

namespace PocketPascal

namespace Arena

/-- The scope with an index has a name and is on a level. -/
def Has (a : Arena) (index : Nat) (name : String) (level : Nat) : Prop :=
  ∃ s, a.get? index = some s ∧ s.name = name ∧ s.level = level

/-- The second arena has the same scopes as the first one. The tables of these agree, up to the name
`x` in the scope with an index, where the second arena has a symbol of that name. -/
structure Gained (a b : Arena) (index : Nat) (x : String) : Prop where
  /-- The links go to older scopes. -/
  linked : a.Linked
  /-- There are as many scopes. -/
  size : b.size = a.size
  /-- They are the same ones. -/
  same : ∀ i s, a.get? i = some s → ∃ t, b.get? i = some t ∧ s.Became t
  /-- Elsewhere the tables agree. -/
  elsewhere : ∀ i < a.size, ∀ y, ¬(i = index ∧ y = x) → b.lookup? i y = a.lookup? i y
  /-- The scope with the index is one of them. -/
  exists_scope : index < a.size
  /-- The second arena has a symbol there. -/
  there : (b.lookup? index x).isSome

section

variable {a b : Arena} {index i : Nat} {x y : String}

theorem lookup?_push (name : String) (level : Nat) (parent : Option Nat) :
    (a.push name level parent).lookup? i y =
      if i = a.size then (Scope.create name level parent).lookup? y else a.lookup? i y := by
  unfold lookup?
  rw [get?_push]
  by_cases hi : i = a.size
  · rw [if_pos hi, if_pos hi, Option.bind_some]
  · rw [if_neg hi, if_neg hi]

/-- A definition makes the difference. -/
theorem gained_define (hl : a.Linked) (hindex : index < a.size) (symbol : Symbol) :
    Gained a (a.define index symbol) index symbol.name := by
  refine ⟨hl, size_define .., ?_, ?_, hindex, ?_⟩
  · intro i s hs
    have hget : (a.define index symbol).get? i =
        if index = i then some (s.define symbol) else some s := by
      rw [get?_define, hs]
      rfl
    by_cases hi : index = i
    · rw [if_pos hi] at hget
      exact ⟨_, hget, rfl, rfl, rfl⟩
    · rw [if_neg hi] at hget
      exact ⟨_, hget, rfl, rfl, rfl⟩
  · intro i hi y hother
    have hne : ¬(index = i ∧ symbol.name = y) := fun both => hother ⟨both.1.symm, both.2.symm⟩
    rw [lookup?_define hi, if_neg hne]
  · rw [lookup?_define hindex, if_pos ⟨rfl, rfl⟩]
    rfl

namespace Gained

variable (h : Gained a b index x)

include h

theorem parent (i : Nat) : (b.get? i).map Scope.parent = (a.get? i).map Scope.parent := by
  cases hs : a.get? i with
  | some s =>
    obtain ⟨t, ht, hbecame⟩ := h.same i s hs
    rw [ht, Option.map_some, Option.map_some, hbecame.parent]
  | none =>
    have hi : ¬i < b.size := by
      rw [h.size]
      exact Nat.not_lt.2 (Array.getElem?_eq_none_iff.1 hs)
    have hnone : b.get? i = none := Array.getElem?_eq_none_iff.2 (Nat.not_lt.1 hi)
    rw [hnone]

theorem linked' : b.Linked := by
  intro i t ht outer houter
  have hsame := h.parent i
  rw [ht, Option.map_some] at hsame
  obtain ⟨s, hs, hparent⟩ := Option.map_eq_some_iff.1 hsame.symm
  rw [← hparent] at houter
  exact h.linked i s hs outer houter

theorem elim_level (outer : Nat) :
    (b.get? outer).elim 0 Scope.level = (a.get? outer).elim 0 Scope.level := by
  cases hs : a.get? outer with
  | some s =>
    obtain ⟨t, ht, hbecame⟩ := h.same outer s hs
    rw [ht, Option.elim_some, Option.elim_some, hbecame.level]
  | none =>
    have hnone := h.parent outer
    rw [hs, Option.map_none, Option.map_eq_none_iff] at hnone
    rw [hnone]

/-! ## What is done in both arenas -/

theorem push {parent : Option Nat} (hparent : ∀ outer ∈ parent, outer < a.size) (name : String)
    (level : Nat) : Gained (a.push name level parent) (b.push name level parent) index x := by
  have hindex := h.exists_scope
  refine ⟨h.linked.push hparent name level, ?_, ?_, ?_, ?_, ?_⟩
  · rw [size_push, size_push, h.size]
  · intro i s hs
    rw [get?_push] at hs
    rw [get?_push, h.size]
    by_cases hi : i = a.size
    · rw [if_pos hi] at hs
      rw [if_pos hi]
      exact ⟨s, hs, rfl, rfl, rfl⟩
    · rw [if_neg hi] at hs
      rw [if_neg hi]
      exact h.same i s hs
  · intro i hi y hother
    rw [size_push] at hi
    rw [lookup?_push, lookup?_push, h.size]
    by_cases hnew : i = a.size
    · rw [if_pos hnew, if_pos hnew]
    · rw [if_neg hnew, if_neg hnew]
      exact h.elsewhere i (by omega) y hother
  · rw [size_push]
    omega
  · have hne : index ≠ b.size := by
      rw [h.size]
      omega
    rw [lookup?_push, if_neg hne]
    exact h.there

theorem define (j : Nat) (symbol : Symbol) :
    Gained (a.define j symbol) (b.define j symbol) index x := by
  refine ⟨h.linked.define j symbol, ?_, ?_, ?_, ?_, ?_⟩
  · rw [size_define, size_define, h.size]
  · intro i s hs
    rw [get?_define] at hs
    rw [get?_define]
    by_cases hj : j = i
    · rw [if_pos hj] at hs
      rw [if_pos hj]
      obtain ⟨s', hs', rfl⟩ := Option.map_eq_some_iff.1 hs
      obtain ⟨t, ht, hbecame⟩ := h.same i s' hs'
      rw [ht]
      exact ⟨t.define symbol, rfl, hbecame.name, hbecame.level, hbecame.parent⟩
    · rw [if_neg hj] at hs
      rw [if_neg hj]
      exact h.same i s hs
  · intro i hi y hother
    rw [size_define] at hi
    have hi' : i < b.size := h.size.symm ▸ hi
    rw [lookup?_define hi, lookup?_define hi', h.elsewhere i hi y hother]
  · rw [size_define]
    exact h.exists_scope
  · have hindex : index < b.size := h.size.symm ▸ h.exists_scope
    rw [lookup?_define hindex]
    split
    · rfl
    · exact h.there

/-! ## What is found in both arenas -/

theorem exists_chain (hi : i < a.size) :
    ∃ chain, a.Chain (some i) chain ∧ b.Chain (some i) chain := by
  obtain ⟨chain, hchain⟩ := h.linked.exists_chain hi
  exact ⟨chain, hchain, hchain.congr fun j _ => h.parent j⟩

theorem resolve?_of_ne (hi : i < a.size) (hy : y ≠ x) : b.resolve? i y = a.resolve? i y := by
  obtain ⟨chain, hchain, hchain'⟩ := h.exists_chain hi
  refine resolve?_congr h.linked h.linked' hchain hchain' ?_
  intro j hj
  exact h.elsewhere j (hchain.lt_size j hj) y fun both => hy both.2

/-- What is found in the first arena is found in the second one, in the same scope, or perhaps in
the one that has got the name. -/
theorem resolve? (hi : i < a.size) {owner : Nat} {symbol : Symbol}
    (hr : a.resolve? i y = some (owner, symbol)) :
    ∃ owner' symbol', b.resolve? i y = some (owner', symbol') ∧
      (owner' = owner ∨ (y = x ∧ owner' = index)) := by
  by_cases hy : y = x
  · subst hy
    obtain ⟨chain, hchain, hchain'⟩ := h.exists_chain hi
    obtain ⟨⟨nearer, farther, rfl, hnone⟩, hlook⟩ := (resolve?_eq_some_iff h.linked hchain).1 hr
    have hbound := hchain.lt_size
    have hskipped : ∀ j ∈ nearer, j ≠ index → b.lookup? j y = none := by
      intro j hj hne
      rw [h.elsewhere j (hbound j (List.mem_append_left _ hj)) y fun both => hne both.1]
      exact hnone j hj
    by_cases hmem : index ∈ nearer
    · -- the search in the second arena stops where it first comes to the scope
      obtain ⟨before, between, rfl, hfirst⟩ := List.eq_append_cons_of_mem hmem
      obtain ⟨symbol', hsymbol'⟩ := Option.isSome_iff_exists.1 h.there
      refine ⟨index, symbol', ?_, .inr ⟨rfl, rfl⟩⟩
      refine (resolve?_eq_some_iff h.linked' hchain').2
        ⟨⟨before, between ++ owner :: farther, by simp, ?_⟩, hsymbol'⟩
      intro j hj
      apply hskipped j (List.mem_append_left _ hj)
      rintro rfl
      exact hfirst hj
    · obtain ⟨symbol', hsymbol'⟩ : ∃ symbol', b.lookup? owner y = some symbol' := by
        by_cases howner : owner = index
        · rw [howner]
          exact Option.isSome_iff_exists.1 h.there
        · have hsame := h.elsewhere owner (hbound owner (by simp)) y fun both => howner both.1
          exact ⟨symbol, hsame.trans hlook⟩
      refine ⟨owner, symbol', ?_, .inl rfl⟩
      refine (resolve?_eq_some_iff h.linked' hchain').2
        ⟨⟨nearer, farther, rfl, ?_⟩, hsymbol'⟩
      intro j hj
      apply hskipped j hj
      rintro rfl
      exact hmem hj
  · exact ⟨owner, symbol, (h.resolve?_of_ne hi hy).trans hr, .inl rfl⟩

end Gained

end

end Arena

end PocketPascal
