import PocketPascal.Scope

/-!
# Arenas of scopes

An arena holds all scopes that have been created, in the order of their creation; a scope is named
by its index. The link from a scope to the enclosing one goes to a smaller index, so a walk along
the links ends. A link that does not is never followed.
-/

namespace PocketPascal

/-- Scopes by index, in the order of their creation. -/
structure Arena where
  /-- The scopes. -/
  scopes : Array Scope

namespace Arena

/-- The arena without scopes. -/
def empty : Arena := ⟨#[]⟩

/-- How many scopes there are. -/
def size (a : Arena) : Nat := a.scopes.size

/-- The scope with the given index. -/
def get? (a : Arena) (i : Nat) : Option Scope := a.scopes[i]?

/-- The arena with a new scope; the index of the new scope is the size of the old arena. -/
def push (a : Arena) (name : String) (level : Nat) (parent : Option Nat) : Arena :=
  ⟨a.scopes.push (Scope.create name level parent)⟩

/-- The arena in which a symbol has been defined in one scope. -/
def define (a : Arena) (i : Nat) (symbol : Symbol) : Arena :=
  ⟨a.scopes.modify i fun s => s.define symbol⟩

/-- The innermost scope that defines a name, seen from scope `i`, by its index and with the
symbol. -/
def resolve? (a : Arena) (i : Nat) (name : String) : Option (Nat × Symbol) :=
  match a.get? i with
  | none => none
  | some scope =>
      match scope.lookup? name with
      | some symbol => some (i, symbol)
      | none =>
          match scope.parent with
          | none => none
          | some parent => if parent < i then a.resolve? parent name else none
termination_by i

/-! ## Scopes after a push and after a definition -/

@[simp] theorem get?_empty (i : Nat) : empty.get? i = none := rfl

@[simp] theorem size_push (a : Arena) (name : String) (level : Nat) (parent : Option Nat) :
    (a.push name level parent).size = a.size + 1 := by
  simp [push, size]

@[simp] theorem size_define (a : Arena) (i : Nat) (symbol : Symbol) :
    (a.define i symbol).size = a.size := by
  simp [define, size]

theorem get?_push (a : Arena) (name : String) (level : Nat) (parent : Option Nat) (i : Nat) :
    (a.push name level parent).get? i =
      if i = a.size then some (Scope.create name level parent) else a.get? i :=
  Array.getElem?_push

theorem get?_define (a : Arena) (i j : Nat) (symbol : Symbol) :
    (a.define i symbol).get? j =
      if i = j then (a.get? j).map fun s => s.define symbol else a.get? j := by
  simp [define, get?, Array.getElem?_modify]

/-- The symbol that a name stands for, seen from any scope, has this name. -/
theorem name_of_resolve? {a : Arena} {i owner : Nat} {name : String} {symbol : Symbol}
    (h : a.resolve? i name = some (owner, symbol)) : symbol.name = name := by
  fun_induction resolve? a i name with
  | case1 => cases h
  | case2 i scope hscope found hfound =>
    cases h
    exact Scope.name_of_lookup? hfound
  | case3 => cases h
  | case4 i scope hscope hnone parent hparent hlt ih => exact ih h
  | case5 => cases h

end Arena

end PocketPascal
