/-!
# Scopes

A scope maps names to symbols. A symbol stands for a variable, a procedure or a built-in type. A
scope without an enclosing scope knows the built-in types from the start; every other scope sees
them through the scopes around it.

The symbols of a scope are kept in a table without an order of its own: its entries stand as its
history has left them. Nothing but a listing goes through all of them, and a listing sorts the names
first.
-/

namespace PocketPascal

/-- A parameter of a procedure symbol. -/
structure Parameter where
  /-- The parameter's name. -/
  name : String
  /-- The name of its type. -/
  type : String
  deriving DecidableEq, Repr

/-- What a symbol stands for. -/
inductive Meaning where
  /-- A variable or parameter of the given type. -/
  | variable (type : String)
  /-- A procedure with the given parameters, in source order. -/
  | procedure (parameters : List Parameter)
  /-- A built-in type. -/
  | builtin
  deriving DecidableEq, Repr

/-- A name with its meaning. -/
structure Symbol where
  /-- The name. -/
  name : String
  /-- What it stands for. -/
  meaning : Meaning
  deriving DecidableEq, Repr

namespace Symbol

/-- Whether the symbol names a type. -/
def isType (s : Symbol) : Bool :=
  match s.meaning with
  | .builtin => true
  | _ => false

/-- How the symbol appears in listings. -/
def describe (s : Symbol) : String :=
  match s.meaning with
  | .variable type => "<Var " ++ s.name ++ ": " ++ type ++ ">"
  | .procedure parameters =>
      let shown := parameters.map fun p => p.name ++ ": " ++ p.type
      "<Procedure " ++ s.name ++ "(" ++ "; ".intercalate shown ++ ")>"
  | .builtin => "<Builtin " ++ s.name ++ ">"

end Symbol

/-- Symbols by name, in no particular order. -/
structure SymbolTable where
  /-- The names, each with its symbol. -/
  entries : List (String × Symbol)
  /-- No name has two symbols. -/
  nodup : (entries.map Prod.fst).Nodup
  /-- Every symbol is kept under its own name. -/
  named : ∀ e ∈ entries, e.2.name = e.1

namespace SymbolTable

/-- The table without symbols. -/
def empty : SymbolTable := ⟨[], List.nodup_nil, List.forall_mem_nil _⟩

/-- The symbol of a name. -/
def get? (t : SymbolTable) (name : String) : Option Symbol :=
  (t.entries.find? fun e => e.1 = name).map Prod.snd

/-- All names, in the order in which their entries happen to stand. -/
def keys (t : SymbolTable) : List String := t.entries.map Prod.fst

/-- How many names there are. -/
def size (t : SymbolTable) : Nat := t.entries.length

/-- The entries of the other names. -/
def others (t : SymbolTable) (name : String) : List (String × Symbol) :=
  t.entries.filter fun e => e.1 ≠ name

theorem nodup_cons_others (t : SymbolTable) (symbol : Symbol) :
    (((symbol.name, symbol) :: t.others symbol.name).map Prod.fst).Nodup := by
  rw [List.map_cons, List.nodup_cons]
  constructor
  · intro hmem
    obtain ⟨e, he, hname⟩ := List.mem_map.1 hmem
    have hother := (List.mem_filter.1 he).2
    simp [hname] at hother
  · exact List.Pairwise.sublist (List.filter_sublist.map Prod.fst) t.nodup

theorem named_cons_others (t : SymbolTable) (symbol : Symbol) :
    ∀ e ∈ (symbol.name, symbol) :: t.others symbol.name, e.2.name = e.1 := by
  intro e he
  rcases List.mem_cons.1 he with rfl | he
  · rfl
  · exact t.named e (List.mem_filter.1 he).1

/-- The table with a symbol under its name, in the place of the one that was there. -/
def insert (t : SymbolTable) (symbol : Symbol) : SymbolTable :=
  ⟨(symbol.name, symbol) :: t.others symbol.name, t.nodup_cons_others symbol,
    t.named_cons_others symbol⟩

@[simp] theorem get?_empty (name : String) : empty.get? name = none := rfl

/-- A name that is not left out is found among the entries of the other names as before. -/
theorem find?_others (t : SymbolTable) {name other : String} (h : other ≠ name) :
    ((t.others other).find? fun e => e.1 = name) = t.entries.find? fun e => e.1 = name := by
  rw [others, List.find?_filter]
  congr 1
  funext e
  by_cases he : e.1 = name
  · simp [he, h.symm]
  · simp [he]

theorem get?_insert (t : SymbolTable) (symbol : Symbol) (name : String) :
    (t.insert symbol).get? name = if symbol.name = name then some symbol else t.get? name := by
  unfold get? insert
  by_cases h : symbol.name = name
  · simp [h]
  · rw [List.find?_cons_of_neg (by simpa using h), find?_others t h, if_neg h]

theorem mem_of_get? {t : SymbolTable} {name : String} {symbol : Symbol}
    (h : t.get? name = some symbol) : (name, symbol) ∈ t.entries := by
  obtain ⟨e, he, rfl⟩ := Option.map_eq_some_iff.1 h
  have hname : e.1 = name := by simpa using List.find?_some he
  have hmem := List.mem_of_find?_eq_some he
  rwa [← hname]

/-- What a name stands for has this name. -/
theorem name_of_get? {t : SymbolTable} {name : String} {symbol : Symbol}
    (h : t.get? name = some symbol) : symbol.name = name :=
  t.named _ (mem_of_get? h)

/-- The names of a table are those that stand for something. -/
theorem mem_keys_iff {t : SymbolTable} {name : String} : name ∈ t.keys ↔ (t.get? name).isSome := by
  rw [keys, get?, Option.isSome_map, List.find?_isSome, List.mem_map]
  simp

@[simp] theorem length_keys (t : SymbolTable) : t.keys.length = t.size := List.length_map ..

end SymbolTable

/-- The names of the built-in types. -/
def builtinTypes : List String := ["INTEGER", "REAL"]

/-- A scope. -/
structure Scope where
  /-- The name of the scope. -/
  name : String
  /-- How deep the scope is nested. -/
  level : Nat
  /-- The index of the enclosing scope, if there is one. -/
  parent : Option Nat
  /-- The symbols, by name. -/
  symbols : SymbolTable

namespace Scope

/-- The scope in which a symbol has been defined; a symbol of the same name is replaced. -/
def define (s : Scope) (symbol : Symbol) : Scope :=
  { s with symbols := s.symbols.insert symbol }

/-- The symbol of a name in this scope alone. -/
def lookup? (s : Scope) (name : String) : Option Symbol := s.symbols.get? name

/-- What a definition gives back: the symbol of the same name that it replaces, if there is one. -/
def replaced? (s : Scope) (symbol : Symbol) : Option Symbol := s.lookup? symbol.name

/-- A new scope. Without an enclosing scope it holds the built-in types. -/
def create (name : String) (level : Nat) (parent : Option Nat) : Scope :=
  match parent with
  | some parent => ⟨name, level, some parent, .empty⟩
  | none =>
      builtinTypes.foldl (fun s type => s.define ⟨type, .builtin⟩) ⟨name, level, none, .empty⟩

/-- How many names the scope holds. -/
def size (s : Scope) : Nat := s.symbols.size

/-- The width to which a listing fills up names on the left. -/
def nameWidth : Nat := 9

/-- What a listing shows for a name: a new line with the name and the symbol it stands for. -/
def entry (s : Scope) (name : String) : String :=
  "\n  " ++ String.ofList (name.toList.leftpad nameWidth ' ') ++ ": " ++
    ((s.lookup? name).map Symbol.describe).getD ""

/-- Names in the order of their code points. -/
def sorted (names : List String) : List String := names.mergeSort fun a b => a ≤ b

/-- The entries of a listing, where `names` are the names of the scope in any order. -/
def contents (s : Scope) (names : List String) : String := String.join ((sorted names).map s.entry)

/-- The listing of a scope: its name, its level, and its entries. -/
def listing (s : Scope) (names : List String) : String :=
  "Scope name  : " ++ s.name ++ "\nScope level : " ++ toString s.level ++ "\nContents    :" ++
    s.contents names

/-- The listing of a scope, with the names as the table gives them. -/
def dump (s : Scope) : String := s.listing s.symbols.keys

/-! ## Lookup after a definition -/

@[simp] theorem lookup?_define (s : Scope) (symbol : Symbol) (name : String) :
    (s.define symbol).lookup? name = if symbol.name = name then some symbol else s.lookup? name := by
  simp [define, lookup?, SymbolTable.get?_insert]

@[simp] theorem name_define (s : Scope) (symbol : Symbol) : (s.define symbol).name = s.name := rfl

@[simp] theorem level_define (s : Scope) (symbol : Symbol) : (s.define symbol).level = s.level := rfl

@[simp] theorem parent_define (s : Scope) (symbol : Symbol) :
    (s.define symbol).parent = s.parent := rfl

@[simp] theorem lookup?_create_some (name : String) (level parent : Nat) (x : String) :
    (create name level (some parent)).lookup? x = none := by
  simp [create, lookup?]

theorem lookup?_create_none (name : String) (level : Nat) (x : String) :
    (create name level none).lookup? x = if x ∈ builtinTypes then some ⟨x, .builtin⟩ else none := by
  simp only [create, builtinTypes, List.foldl, lookup?_define, List.mem_cons, List.not_mem_nil,
    or_false]
  by_cases hr : x = "REAL" <;> by_cases hi : x = "INTEGER" <;> simp [hr, hi, eq_comm, lookup?]

/-- What a name stands for has this name. -/
theorem name_of_lookup? {s : Scope} {name : String} {symbol : Symbol}
    (h : s.lookup? name = some symbol) : symbol.name = name :=
  SymbolTable.name_of_get? h

end Scope

end PocketPascal
