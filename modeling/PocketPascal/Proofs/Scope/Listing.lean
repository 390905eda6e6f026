import Mathlib.Data.List.Sort
import PocketPascal.Proofs.Scope.Outlines
import PocketPascal.Proofs.Text.Bytes

/-!
# The listing of a scope

Symbols are defined in a new scope, one after another, and each takes the place of the symbol of its
name that was defined before. The table of the scope gives its names in some order, and the listing
sorts them. So it has one entry for each name, in the order of the bytes of the names, and the entry
shows the last symbol of the name. It does not matter in which order names were defined and how often,
nor in which order the table gives them: the listing is determined by the last symbols alone.

Every entry begins a new line. Nothing in it is escaped, so an entry whose symbol has a line feed in
its text takes more than this line. The main statement counts entries therefore; they are as many as
the lines below the heading exactly if there is no such symbol.
-/

namespace PocketPascal

/-- The latest symbol of a name is among the later symbols, if these have the name at all. -/
theorem latest?_append_eq_or (symbols more : List Symbol) (x : String) :
    latest? (symbols ++ more) x = (latest? more x).or (latest? symbols x) := by
  unfold latest?
  rw [List.reverse_append, List.find?_append]

/-- What a listing shows for a symbol: a new line with the name, filled up to nine characters, and
the symbol. -/
def Symbol.line (symbol : Symbol) : String :=
  "\n  " ++ String.ofList (symbol.name.toList.leftpad 9 ' ') ++ ": " ++ symbol.describe

/-- How many lines a text begins. -/
def Text.lineFeeds (text : String) : Nat := text.toList.count '\n'

namespace Scope

/-- The scope in which symbols have been defined, one after another. -/
def defineAll (s : Scope) (symbols : List Symbol) : Scope := symbols.foldl define s

variable {s s' : Scope} {o : Outline} {symbols : List Symbol}

/-! ## Definitions one after another -/

theorem Matches.defineAll (h : s.Matches o) (symbols : List Symbol) :
    (s.defineAll symbols).Matches { o with symbols := o.symbols ++ symbols } := by
  induction symbols generalizing s o with
  | nil => simpa [Scope.defineAll] using h
  | cons symbol symbols ih =>
    have hmore := ih (h.define symbol)
    rwa [List.append_assoc, List.singleton_append] at hmore

theorem level_defineAll (s : Scope) (symbols : List Symbol) :
    (s.defineAll symbols).level = s.level := by
  induction symbols generalizing s with
  | nil => rfl
  | cons symbol symbols ih => exact ih (s.define symbol)

/-! ## Names in order -/

section

variable {names names' : List String}

theorem sorted_perm (names : List String) : (sorted names).Perm names :=
  List.mergeSort_perm names _

theorem pairwise_sorted (names : List String) : (sorted names).Pairwise (· ≤ ·) :=
  List.pairwise_mergeSort' (· ≤ ·) names

/-- Different names are increasing once they are sorted. -/
theorem increasing_sorted (h : names.Nodup) : (sorted names).Pairwise (· < ·) := by
  have hdifferent : (sorted names).Pairwise (· ≠ ·) := (sorted_perm names).nodup_iff.2 h
  exact ((pairwise_sorted names).and hdifferent).imp fun h => Std.lt_of_le_of_ne h.1 h.2

/-- Sorting forgets the order in which the names were given. -/
theorem sorted_congr (h : names.Perm names') : sorted names = sorted names' := by
  have hperm : (sorted names).Perm (sorted names') :=
    (sorted_perm names).trans (h.trans (sorted_perm names').symm)
  exact hperm.eq_of_pairwise' (pairwise_sorted names) (pairwise_sorted names')

theorem isSome_of_mem_sorted {x : String} (h : x ∈ sorted s.symbols.keys) :
    (s.lookup? x).isSome :=
  SymbolTable.mem_keys_iff.1 ((sorted_perm _).mem_iff.1 h)

theorem entry_eq {x : String} {symbol : Symbol} (h : s.lookup? x = some symbol) :
    s.entry x = symbol.line := by
  obtain rfl := name_of_lookup? h
  rw [entry, h]
  rfl

/-- If all names stand for symbols, none of them is lost on the way to the entries. -/
theorem filterMap_lookup? (h : ∀ x ∈ names, (s.lookup? x).isSome) :
    (names.filterMap s.lookup?).map Symbol.name = names ∧
      (names.filterMap s.lookup?).map Symbol.line = names.map s.entry := by
  induction names with
  | nil => exact ⟨rfl, rfl⟩
  | cons x names ih =>
    obtain ⟨symbol, hsymbol⟩ := Option.isSome_iff_exists.1 (h x List.mem_cons_self)
    obtain ⟨hnames, hlines⟩ := ih fun y hy => h y (List.mem_cons_of_mem x hy)
    rw [List.filterMap_cons_some hsymbol]
    constructor
    · rw [List.map_cons, hnames, name_of_lookup? hsymbol]
    · rw [List.map_cons, List.map_cons, hlines, entry_eq hsymbol]

end

/-! ## The symbols in order -/

/-- The symbols of a scope in the order of their names. -/
def listed (s : Scope) : List Symbol := (sorted s.symbols.keys).filterMap s.lookup?

theorem names_listed (s : Scope) : s.listed.map Symbol.name = sorted s.symbols.keys :=
  (filterMap_lookup? fun _ => isSome_of_mem_sorted).1

theorem contents_eq (s : Scope) :
    s.contents s.symbols.keys = String.join (s.listed.map Symbol.line) := by
  have hlines : s.listed.map Symbol.line = (sorted s.symbols.keys).map s.entry :=
    (filterMap_lookup? fun _ => isSome_of_mem_sorted).2
  rw [contents, hlines]

/-- The symbols in a scope are those that its names stand for. -/
theorem mem_listed_iff {symbol : Symbol} :
    symbol ∈ s.listed ↔ s.lookup? symbol.name = some symbol := by
  rw [listed, List.mem_filterMap]
  constructor
  · rintro ⟨x, -, hx⟩
    rwa [name_of_lookup? hx]
  · intro h
    have hkey : symbol.name ∈ s.symbols.keys :=
      SymbolTable.mem_keys_iff.2 (Option.isSome_of_eq_some h)
    exact ⟨symbol.name, (sorted_perm _).mem_iff.2 hkey, h⟩

/-- The symbols stand in the order of the bytes of their names. -/
theorem increasing_listed (s : Scope) :
    s.listed.Pairwise fun a b => Text.bytes a.name < Text.bytes b.name := by
  have hnames : (s.listed.map Symbol.name).Pairwise (· < ·) := by
    rw [names_listed]
    exact increasing_sorted s.symbols.nodup
  exact (List.pairwise_map.1 hnames).imp Text.bytes_lt_bytes

theorem length_listed (s : Scope) : s.listed.length = s.size := by
  have hlength := congrArg List.length (names_listed s)
  rw [List.length_map, (sorted_perm _).length_eq, SymbolTable.length_keys] at hlength
  exact hlength

/-! ## Lines -/

theorem mem_describe_of_mem_name {symbol : Symbol} {c : Char} (h : c ∈ symbol.name.toList) :
    c ∈ symbol.describe.toList := by
  unfold Symbol.describe
  cases symbol.meaning <;> simp [h]

/-- An entry begins one line, and one more with every line feed in it. -/
theorem lineFeeds_line (symbol : Symbol) :
    Text.lineFeeds symbol.line =
      1 + Text.lineFeeds symbol.name + Text.lineFeeds symbol.describe := by
  simp [Text.lineFeeds, Symbol.line, List.leftpad, List.count_replicate]
  omega

/-- An entry is a single line exactly if there is no line feed in the text of its symbol. -/
theorem lineFeeds_line_eq_one_iff {symbol : Symbol} :
    Text.lineFeeds symbol.line = 1 ↔ '\n' ∉ symbol.describe.toList := by
  rw [lineFeeds_line, ← List.count_eq_zero]
  constructor
  · intro h
    have hdescribe : Text.lineFeeds symbol.describe = 0 := by omega
    exact hdescribe
  · intro h
    have hname : Text.lineFeeds symbol.name = 0 :=
      List.count_eq_zero.2 fun hmem => List.count_eq_zero.1 h (mem_describe_of_mem_name hmem)
    have hdescribe : Text.lineFeeds symbol.describe = 0 := h
    omega

/-- Entries are no more than the lines that they take, and as many if all of them are single lines. -/
theorem lineFeeds_join (entries : List Symbol) :
    entries.length ≤ Text.lineFeeds (String.join (entries.map Symbol.line)) ∧
      (Text.lineFeeds (String.join (entries.map Symbol.line)) = entries.length ↔
        ∀ symbol ∈ entries, '\n' ∉ symbol.describe.toList) := by
  induction entries with
  | nil => simp [Text.lineFeeds]
  | cons symbol entries ih =>
    have hcons : Text.lineFeeds (String.join ((symbol :: entries).map Symbol.line)) =
        Text.lineFeeds symbol.line + Text.lineFeeds (String.join (entries.map Symbol.line)) := by
      simp [Text.lineFeeds, String.toList_join]
    have hline := lineFeeds_line symbol
    rw [hcons, List.length_cons, List.forall_mem_cons, ← lineFeeds_line_eq_one_iff, ← ih.2]
    constructor
    · omega
    · constructor
      · intro h
        constructor <;> omega
      · rintro ⟨hone, hmore⟩
        omega

/-! ## The listing -/

/-- The listing of a scope with a name and a level, in which the symbols have been defined, has these
entries. -/
structure Lists (name : String) (level : Nat) (symbols : List Symbol) (s : Scope)
    (entries : List Symbol) : Prop where
  /-- There is exactly one entry for each name that has been defined. -/
  names : (entries.map Symbol.name).Nodup ∧
    ∀ x, x ∈ entries.map Symbol.name ↔ x ∈ symbols.map Symbol.name
  /-- The names increase in the order of their bytes. -/
  increasing : entries.Pairwise fun a b => Text.bytes a.name < Text.bytes b.name
  /-- The entry of a name is the symbol that was defined last under it. -/
  last : ∀ symbol ∈ entries, latest? symbols symbol.name = some symbol
  /-- The listing consists of the entries behind a heading, each on a new line. -/
  text : s.dump = "Scope name  : " ++ name ++ "\nScope level : " ++ toString level ++
    "\nContents    :" ++ String.join (entries.map Symbol.line)
  /-- The size is the number of the entries. -/
  size : s.size = entries.length
  /-- There are at least as many lines behind the heading, and as many exactly if there is no line
  feed in the text of a symbol. -/
  lines : s.size ≤ Text.lineFeeds (String.join (entries.map Symbol.line)) ∧
    (Text.lineFeeds (String.join (entries.map Symbol.line)) = s.size ↔
      ∀ symbol ∈ entries, '\n' ∉ symbol.describe.toList)

theorem Matches.lists (h : s.Matches o) : s.Lists o.name s.level o.symbols s.listed where
  names := by
    rw [names_listed]
    refine ⟨(sorted_perm _).nodup_iff.2 s.symbols.nodup, fun x => ?_⟩
    rw [(sorted_perm _).mem_iff, SymbolTable.mem_keys_iff, ← isSome_latest?_iff, ← h.lookup]
    rfl
  increasing := increasing_listed s
  last symbol hmem := by
    rw [← h.lookup]
    exact mem_listed_iff.1 hmem
  text := by
    unfold dump listing
    rw [contents_eq, h.name]
  size := (length_listed s).symm
  lines := by
    rw [← length_listed]
    exact lineFeeds_join s.listed

/-- The order in which the names are given does not matter. -/
theorem listing_eq_dump {names : List String} (h : names.Perm s.symbols.keys) :
    s.listing names = s.dump := by
  unfold dump listing contents
  rw [sorted_congr h]

/-- The listing is determined by the name, the level, and what the names stand for. -/
theorem dump_eq_of_lookup? (hname : s.name = s'.name) (hlevel : s.level = s'.level)
    (h : ∀ x, s.lookup? x = s'.lookup? x) : s.dump = s'.dump := by
  have hkeys : s.symbols.keys.Perm s'.symbols.keys := by
    refine (List.perm_ext_iff_of_nodup s.symbols.nodup s'.symbols.nodup).2 fun x => ?_
    have hx : s.symbols.get? x = s'.symbols.get? x := h x
    show x ∈ s.symbols.keys ↔ x ∈ s'.symbols.keys
    rw [SymbolTable.mem_keys_iff, SymbolTable.mem_keys_iff, hx]
  have hentry : s.entry = s'.entry := by
    funext x
    rw [entry, entry, h]
  unfold dump listing contents
  rw [sorted_congr hkeys, hentry, hname, hlevel]

/-- Whatever symbols are defined in a new scope, its listing has one entry for each of their names,
and for the built-in types if there is no scope around it, in the order of the names, with the
symbol that was defined last; the size of the scope is the number of entries, and the number of lines
behind the heading if no symbol has a line feed in its text. One more definition gives back the
symbol that was defined last under its name, if there is one. The listing does not depend on the
order in which the table gives the names, and other symbols make the same listing if the last one of
each name is the same. -/
theorem listing_of_definitions (name : String) (level : Nat) (parent : Option Nat)
    (symbols : List Symbol) :
    (∃ entries, ((create name level parent).defineAll symbols).Lists name level
      (builtinSymbols parent ++ symbols) entries) ∧
    (∀ symbol, ((create name level parent).defineAll symbols).replaced? symbol =
      latest? (builtinSymbols parent ++ symbols) symbol.name) ∧
    (∀ names, names.Perm ((create name level parent).defineAll symbols).symbols.keys →
      ((create name level parent).defineAll symbols).listing names =
        ((create name level parent).defineAll symbols).dump) ∧
    ∀ others, (∀ x, latest? others x = latest? symbols x) →
      ((create name level parent).defineAll others).dump =
        ((create name level parent).defineAll symbols).dump := by
  have hcreate := matches_create name level parent
  have hmatches := hcreate.defineAll symbols
  have hlevel : ((create name level parent).defineAll symbols).level = level := by
    rw [level_defineAll, level_create]
  have hlists := hmatches.lists
  rw [hlevel] at hlists
  refine ⟨⟨_, hlists⟩, fun symbol => hmatches.lookup symbol.name, fun _ => listing_eq_dump,
    fun others h => ?_⟩
  have hothers := hcreate.defineAll others
  refine dump_eq_of_lookup? (hothers.name.trans hmatches.name.symm) ?_ fun x => ?_
  · rw [level_defineAll, level_defineAll]
  · rw [hothers.lookup, hmatches.lookup, latest?_append_eq_or, latest?_append_eq_or, h]

/-- A variable whose name has a line feed in it. -/
def brokenName : Symbol := ⟨"a\nb", .variable "INTEGER"⟩

/-- A listing with one entry can take three lines, since an entry shows its name twice. -/
theorem lines_of_brokenName :
    ((create "s" 2 (some 0)).defineAll [brokenName]).dump =
      "Scope name  : s\nScope level : 2\nContents    :" ++ "\n        a\nb: <Var a\nb: INTEGER>" ∧
    Text.lineFeeds "\n        a\nb: <Var a\nb: INTEGER>" = 3 ∧
    ((create "s" 2 (some 0)).defineAll [brokenName]).size = 1 := by
  have hkeys : ((create "s" 2 (some 0)).defineAll [brokenName]).symbols.keys = ["a\nb"] := by
    decide +kernel
  have hsorted : sorted ["a\nb"] = ["a\nb"] := List.mergeSort_singleton _
  refine ⟨?_, by decide +kernel, by decide +kernel⟩
  unfold dump listing contents
  rw [hkeys, hsorted]
  decide +kernel

/-- A name that is defined twice has one entry, which shows what it stands for in the end. -/
example : ((create "p" 2 (some 0)).defineAll
      [⟨"b", .variable "REAL"⟩, ⟨"a", .variable "REAL"⟩, ⟨"b", .procedure []⟩]).listed =
    [⟨"a", .variable "REAL"⟩, ⟨"b", .procedure []⟩] := by cbv

end Scope

end PocketPascal
