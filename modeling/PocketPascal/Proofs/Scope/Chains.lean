import PocketPascal.Scope.Rules

/-!
# Chains of scopes as stacks of frames

The links of an arena lead from a scope to the scopes around it. Read from one scope outwards, they
are a stack of frames: scope by scope the same name, the same level, and the same meaning of every
name. Two facts make the arena as good as the stack: a name is resolved along the chain as it is
found in the stack, and a chain sees nothing of the scopes that were created after its innermost one.
-/

namespace PocketPascal

open Scoping

/-- A scope shows a frame: it has the same name and level, and every name means the same in it. -/
structure Scope.Shows (s : Scope) (f : Frame) : Prop where
  /-- The names agree. -/
  name : s.name = f.name
  /-- The levels agree. -/
  level : s.level = f.level
  /-- Every name has the same symbol. -/
  lookup : ∀ x, s.lookup? x = f.lookup? x

/-- Declaring a symbol in a frame hides an earlier symbol of the same name. -/
theorem Scoping.Frame.lookup?_cons (name : String) (level : Nat) (symbol : Symbol)
    (symbols : List Symbol) (x : String) :
    Frame.lookup? ⟨name, level, symbol :: symbols⟩ x =
      if symbol.name = x then some symbol else Frame.lookup? ⟨name, level, symbols⟩ x := by
  simp only [Frame.lookup?, List.find?_cons]
  by_cases h : symbol.name = x <;> simp [h]

namespace Scope.Shows

/-- A symbol defined in the scope is a symbol declared in the frame. -/
theorem define {s : Scope} {f : Frame} (h : s.Shows f) (symbol : Symbol) :
    (s.define symbol).Shows { f with symbols := symbol :: f.symbols } := by
  refine ⟨h.name, h.level, fun x => ?_⟩
  rw [lookup?_define, Frame.lookup?_cons, h.lookup x]

theorem created (name : String) (level parent : Nat) :
    (Scope.create name level (some parent)).Shows ⟨name, level, []⟩ :=
  ⟨rfl, rfl, fun x => by rw [lookup?_create_some]; rfl⟩

theorem outermost : (Scope.create Analysis.globalName 1 none).Shows globalFrame := by
  refine ⟨rfl, rfl, fun x => ?_⟩
  rw [lookup?_create_none, globalFrame, Frame.lookup?_cons, Frame.lookup?_cons]
  have hnone : Frame.lookup? ⟨"global", 1, []⟩ x = none := rfl
  rw [hnone]
  by_cases hr : x = "REAL"
  · subst hr
    decide
  · by_cases hi : x = "INTEGER"
    · subst hi
      decide
    · have hout : x ∉ builtinTypes := by simp [builtinTypes, hr, hi]
      rw [if_neg hout, if_neg (Ne.symm hr), if_neg (Ne.symm hi)]

end Scope.Shows

/-- The scopes along the links from a start, the innermost first, show a stack of frames. Every link
goes to an older scope. -/
inductive Arena.Shows (arena : Arena) : Option Nat → List Frame → Prop where
  /-- There is nothing around the outermost scope. -/
  | nothing : Arena.Shows arena none []
  /-- A scope, and the scopes around it. -/
  | scope {i : Nat} {s : Scope} {f : Frame} {outer : List Frame} (found : arena.get? i = some s)
      (shows : s.Shows f) (older : ∀ parent ∈ s.parent, parent < i)
      (around : Arena.Shows arena s.parent outer) : Arena.Shows arena (some i) (f :: outer)

namespace Arena.Shows

/-- The innermost scope of a chain is in the arena, and it shows the innermost frame. -/
theorem innermost {arena : Arena} {i : Nat} {f : Frame} {outer : List Frame}
    (h : arena.Shows (some i) (f :: outer)) : ∃ s, arena.get? i = some s ∧ s.Shows f := by
  cases h with
  | scope found shows _ _ => exact ⟨_, found, shows⟩

/-- A name is resolved along a chain as it is found in the stack: in neither, or in both with the
same symbol, in a scope that shows the frame. -/
theorem resolve {arena : Arena} {frames : List Frame} {i : Nat} (h : arena.Shows (some i) frames)
    (x : String) :
    (arena.resolve? i x = none ∧ find? frames x = none) ∨
      ∃ owner s f symbol, arena.resolve? i x = some (owner, symbol) ∧
        find? frames x = some (f, symbol) ∧ arena.get? owner = some s ∧ s.Shows f := by
  generalize hstart : some i = start at h
  induction h generalizing i with
  | nothing => cases hstart
  | @scope j s f outer found shows older around ih =>
    obtain rfl : i = j := Option.some.inj hstart
    rw [Arena.resolve?, found, find?]
    simp only [shows.lookup x]
    -- a scope that does not know the name leaves it to the scopes around it
    cases hlook : f.lookup? x with
    | some symbol => exact Or.inr ⟨i, s, f, symbol, rfl, rfl, found, shows⟩
    | none =>
      cases hparent : s.parent with
      | none =>
        rw [hparent] at around
        cases around
        exact Or.inl ⟨rfl, rfl⟩
      | some parent =>
        have hlt : parent < i := older parent hparent
        simp only [if_pos hlt]
        exact ih hparent.symm

/-- A chain sees nothing of scopes that are younger than its innermost one. -/
theorem congr {arena arena' : Arena} {start : Option Nat} {frames : List Frame}
    (h : arena.Shows start frames)
    (same : ∀ i ∈ start, ∀ j ≤ i, arena'.get? j = arena.get? j) : arena'.Shows start frames := by
  induction h with
  | nothing => exact .nothing
  | @scope i s f outer found shows older around ih =>
    have hfound : arena'.get? i = some s := by rw [same i rfl i (Nat.le_refl i), found]
    refine .scope hfound shows older (ih fun parent hparent j hj => ?_)
    exact same i rfl j (Nat.le_trans hj (Nat.le_of_lt (older parent hparent)))

/-- Defining a symbol in the innermost scope of a chain declares it in the innermost frame. -/
theorem define {arena : Arena} {i : Nat} {f : Frame} {outer : List Frame}
    (h : arena.Shows (some i) (f :: outer)) (symbol : Symbol) :
    (arena.define i symbol).Shows (some i) ({ f with symbols := symbol :: f.symbols } :: outer) := by
  cases h with
  | @scope _ s _ _ found shows older around =>
    have hfound : (arena.define i symbol).get? i = some (s.define symbol) := by
      rw [get?_define, if_pos rfl, found]
      rfl
    refine .scope hfound (shows.define symbol) older (around.congr fun parent hparent j hj => ?_)
    have hne : i ≠ j := by
      have := older parent hparent
      omega
    rw [get?_define, if_neg hne]

/-- A scope created inside the innermost one opens a frame on top of the stack. -/
theorem push {arena : Arena} {i : Nat} {frames : List Frame} (h : arena.Shows (some i) frames)
    (hi : i < arena.size) (name : String) (level : Nat) :
    (arena.push name level (some i)).Shows (some arena.size) (⟨name, level, []⟩ :: frames) := by
  have hfound : (arena.push name level (some i)).get? arena.size =
      some (Scope.create name level (some i)) := by
    rw [get?_push, if_pos rfl]
  refine .scope hfound (.created name level i) (fun parent hparent => ?_) (h.congr ?_)
  · cases hparent
    exact hi
  · intro parent hparent j hj
    cases hparent
    have hne : j ≠ arena.size := by omega
    rw [get?_push, if_neg hne]

end Arena.Shows

theorem Arena.lt_size_of_get? {arena : Arena} {i : Nat} {s : Scope} (h : arena.get? i = some s) :
    i < arena.size :=
  (Array.getElem?_eq_some_iff.mp h).1

end PocketPascal
