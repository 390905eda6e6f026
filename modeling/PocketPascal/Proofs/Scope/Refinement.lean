import PocketPascal.Proofs.Scope.Chains

/-!
# The analysis follows the rules of scoping

The analysis keeps all scopes in an arena, and events beside them; the rules keep the open scopes
alone, as a stack of frames. A part of the analysis follows a part of the rules if, started with the
same names found, both end well or both end with the same error, and in either case again with the
same names found. The parts are put together in the order of the walk. What is kept between them is
that the chain of scopes from the current one shows the current stack, and that older scopes are as
they were: so a procedure, all of whose scopes are new, leaves the chain around it as it found it.
-/

namespace PocketPascal

open Scoping

namespace Analysis

/-! ## The names found so far -/

theorem State.resolutions_push_of_none {event : Event} (arena : Arena) (events : Array Event)
    (h : ∀ found, event ≠ .resolve found) :
    State.resolutions ⟨arena, events.push event⟩ = State.resolutions ⟨arena, events⟩ := by
  cases event with
  | resolve found => exact absurd rfl (h found)
  | _ => simp [State.resolutions]

theorem State.resolutions_push_resolve (arena : Arena) (events : Array Event) (found : Resolution) :
    State.resolutions ⟨arena, events.push (.resolve found)⟩ =
      State.resolutions ⟨arena, events⟩ ++ [found] := by
  simp [State.resolutions]

/-! ## Following -/

/-- Both sides have ended well, and `post` holds of the arena and the value, or both have ended with
the same error; and they have found the same names. -/
inductive Agree {α : Type} (post : α → Arena → Prop) :
    EStateM.Result ScopeError State Unit → EStateM.Result ScopeError (List Resolution) α → Prop where
  /-- Both have ended well. -/
  | ok {s : State} {value : α} {found : List Resolution} (names : s.resolutions = found)
      (holds : post value s.arena) : Agree post (.ok () s) (.ok value found)
  /-- Both have ended with an error. -/
  | error {s : State} {cause : ScopeError} {found : List Resolution}
      (names : s.resolutions = found) : Agree post (.error cause s) (.error cause found)

/-- From an arena of which `pre` holds, a part of the analysis follows a part of the rules. -/
def Follows {α : Type} (pre : Arena → Prop) (walk : Walk) (check : Check α)
    (post : α → Arena → Prop) : Prop :=
  ∀ s : State, pre s.arena → Agree post (walk s) (check s.resolutions)

namespace Follows

variable {α β : Type} {pre mid : Arena → Prop} {walk next : Walk} {check : Check α}
  {post : α → Arena → Prop}

theorem done (value : α) (h : ∀ arena, pre arena → post value arena) :
    Follows pre (pure ()) (pure value) post :=
  fun s hs => .ok rfl (h s.arena hs)

theorem failed (cause : ScopeError) :
    Follows pre (throw cause) (throw cause : Check α) post :=
  fun _ _ => .error rfl

theorem bind {post' : β → Arena → Prop} {rest : α → Check β}
    (first : Follows pre walk check post)
    (second : ∀ value, Follows (post value) next (rest value) post') :
    Follows pre (walk >>= fun _ => next) (check >>= rest) post' := by
  intro s hs
  have hfirst := first s hs
  show Agree post' (EStateM.bind walk (fun _ => next) s) (EStateM.bind check rest s.resolutions)
  generalize hw : walk s = ended at hfirst
  generalize hc : check s.resolutions = ended' at hfirst
  cases hfirst with
  | @ok s' value found names holds =>
    subst names
    have hsecond := second value s' holds
    simpa only [EStateM.bind, hw, hc] using hsecond
  | error names =>
    simp only [EStateM.bind, hw, hc]
    exact .error names

/-- A part of the analysis that nothing in the rules answers to. -/
theorem quiet (first : Follows pre walk (pure ()) fun _ => mid)
    (second : Follows mid next check post) :
    Follows pre (walk >>= fun _ => next) check post := by
  have h : Follows pre (walk >>= fun _ => next) ((pure () : Check Unit) >>= fun _ => check)
      post := bind first fun _ => second
  rwa [pure_bind] at h

/-- A part of the analysis that looks at the state first. -/
theorem looking {part : State → Walk}
    (h : ∀ s, pre s.arena → Follows (· = s.arena) (part s) check post) :
    Follows pre (get >>= part) check post :=
  fun s hs => h s hs s rfl

/-- A part of the analysis that needs a scope which the arena holds. -/
theorem inScope {index : Nat} {part : Scope → Walk}
    (h : ∀ arena, pre arena → ∃ scope, arena.get? index = some scope ∧
      Follows (· = arena) (part scope) check post) :
    Follows pre (Analysis.inScope index part) check post := by
  refine looking fun s hs => ?_
  obtain ⟨scope, hscope, hpart⟩ := h s.arena hs
  rw [hscope]
  exact hpart

theorem noting {event : Event} (value : α) (hevent : ∀ found, event ≠ .resolve found)
    (h : ∀ arena, pre arena → post value arena) :
    Follows pre (note event) (pure value) post :=
  fun s hs => .ok (State.resolutions_push_of_none s.arena s.events hevent) (h s.arena hs)

theorem changing (change : Arena → Arena) (h : ∀ arena, pre arena → mid (change arena)) :
    Follows pre (modify fun s => { s with arena := change s.arena }) (pure ()) fun _ => mid :=
  fun s hs => .ok rfl (h s.arena hs)

end Follows

/-! ## Names -/

/-- In the arena the chain from scope `index` shows `frames`, and all older scopes are as they are
in `base`. -/
structure Stands (base : Arena) (index : Nat) (frames : List Frame) (arena : Arena) : Prop where
  /-- The chain. -/
  chain : arena.Shows (some index) frames
  /-- The older scopes. -/
  older : ∀ j < index, arena.get? j = base.get? j

section Names

variable {base : Arena} {index : Nat} {frames : List Frame}

theorem follows_checkType (type : Name) :
    Follows (Stands base index frames) (checkType index type) (Scoping.checkType frames type)
      fun _ => Stands base index frames := by
  intro s hs
  rw [checkType_eq]
  rcases hs.chain.resolve type.text with ⟨hres, hfind⟩ | ⟨_, _, _, symbol, hres, hfind, -, -⟩
  · simp only [Scoping.checkType, hres, hfind]
    exact .error rfl
  · obtain ⟨name, meaning⟩ := symbol
    simp only [Scoping.checkType, hres, hfind]
    cases meaning with
    | builtin => exact .ok rfl hs
    | «variable» => exact .error rfl
    | procedure => exact .error rfl

theorem follows_checkName (name : Name) :
    Follows (Stands base index frames) (checkName index name) (Scoping.checkName frames name)
      fun _ => Stands base index frames := by
  refine Follows.looking fun s hs => ?_
  rcases hs.chain.resolve name.text with ⟨hres, hfind⟩ | ⟨owner, scope, f, _, hres, hfind, hget, hsf⟩
  · simp only [Scoping.checkName, hres, hfind]
    exact .failed _
  · simp only [Scoping.checkName, hres, hfind]
    refine Follows.inScope fun arena harena => ⟨scope, by rw [harena, hget], ?_⟩
    subst harena
    intro s' hs'
    refine .ok ?_ (hs' ▸ hs)
    rw [State.resolutions_push_resolve, hsf.name, hsf.level]

theorem follows_checkExpr (e : Expr) :
    Follows (Stands base index frames) (checkExpr index e) (Scoping.checkExpr frames e)
      fun _ => Stands base index frames := by
  induction e with
  | literal value line => exact .done () fun _ h => h
  | «variable» name => exact follows_checkName name
  | unary op operand line ih => exact ih
  | binary op left right line ihl ihr => exact ihl.bind fun _ => ihr

mutual

theorem follows_checkStatement (s : Statement) :
    Follows (Stands base index frames) (checkStatement index s) (Scoping.checkStatement frames s)
      fun _ => Stands base index frames := by
  cases s with
  | compound body =>
    rw [checkStatement, Scoping.checkStatement]
    exact follows_checkStatements body
  | assign target value line =>
    rw [checkStatement, Scoping.checkStatement]
    exact (follows_checkName target).bind fun _ => follows_checkExpr value
  | empty =>
    rw [checkStatement, Scoping.checkStatement]
    exact .done () fun _ h => h

theorem follows_checkStatements (body : List Statement) :
    Follows (Stands base index frames) (checkStatements index body)
      (Scoping.checkStatements frames body) fun _ => Stands base index frames := by
  cases body with
  | nil =>
    rw [checkStatements, Scoping.checkStatements]
    exact .done () fun _ h => h
  | cons first more =>
    rw [checkStatements, Scoping.checkStatements]
    exact (follows_checkStatement first).bind fun _ => follows_checkStatements more

end

end Names

/-! ## Declarations -/

section Declarations

variable {policy : Policy} {base : Arena} {index : Nat} {f : Frame} {outer : List Frame}

theorem follows_define (symbol : Symbol) (line : Nat) :
    Follows (Stands base index (f :: outer)) (define policy index symbol line)
      (f.declare policy symbol line) fun f' => Stands base index (f' :: outer) := by
  refine Follows.inScope fun arena harena => ?_
  obtain ⟨s, hget, hsf⟩ := harena.chain.innermost
  refine ⟨s, hget, ?_⟩
  unfold Frame.declare
  rw [hsf.lookup, hsf.name]
  by_cases hdup : policy = .reject ∧ (f.lookup? symbol.name).isSome
  · simp only [if_pos hdup]
    exact .failed _
  · simp only [if_neg hdup]
    -- the scope is found in the arena, so the definition changes this scope and no other one
    have hdefined : Stands base index ({ f with symbols := symbol :: f.symbols } :: outer)
        (arena.define index symbol) := by
      refine ⟨harena.chain.define symbol, fun j hj => ?_⟩
      have hne : index ≠ j := by omega
      rw [Arena.get?_define, if_neg hne, harena.older j hj]
    have hstep : Follows (· = arena)
        (modify fun s => { s with arena := s.arena.define index symbol }) (pure ())
        fun _ => Stands base index ({ f with symbols := symbol :: f.symbols } :: outer) := by
      refine .changing (fun arena => arena.define index symbol) ?_
      rintro _ rfl
      exact hdefined
    refine Follows.quiet (.noting () (by simp) fun _ h => h) (hstep.quiet ?_)
    cases f.lookup? symbol.name with
    | none => exact .done _ fun _ h => h
    | some previous => exact .noting _ (by simp) fun _ h => h

theorem follows_declareBinding (b : Binding) :
    Follows (Stands base index (f :: outer)) (declareBinding policy index b)
      (Scoping.declareBinding policy outer f b) fun f' => Stands base index (f' :: outer) := by
  rw [declareBinding_eq]
  exact (follows_checkType b.type).bind fun _ => follows_define _ _

theorem follows_declareBindings (bs : List Binding) :
    Follows (Stands base index (f :: outer)) (declareBindings policy index bs)
      (Scoping.declareBindings policy outer f bs) fun f' => Stands base index (f' :: outer) := by
  induction bs generalizing f with
  | nil => exact .done f fun _ h => h
  | cons first more ih => exact (follows_declareBinding first).bind fun _ => ih

/-- Entering a procedure opens an empty frame on top of the stack, and keeps the arena. -/
theorem follows_enterProcedure {arena : Arena} (h : Stands base index (f :: outer) arena)
    (name : String) :
    Follows (· = arena) (enterProcedure index name) (pure ())
      fun _ => Stands arena arena.size (⟨name, f.level + 1, []⟩ :: f :: outer) := by
  obtain ⟨s, hget, hsf⟩ := h.chain.innermost
  have hindex : index < arena.size := Arena.lt_size_of_get? hget
  refine Follows.looking fun t ht => ?_
  subst ht
  simp only [hget, Option.elim_some]
  refine Follows.quiet (.changing (fun arena => arena.push name (s.level + 1) (some index)) ?_)
    (.noting () (by simp) fun _ h => h)
  rintro _ rfl
  rw [hsf.level]
  refine ⟨h.chain.push hindex name (f.level + 1), fun j hj => ?_⟩
  have hne : j ≠ t.arena.size := by omega
  rw [Arena.get?_push, if_neg hne]

theorem follows_leave {α : Type} {post : α → Arena → Prop} (value : α)
    (h : ∀ arena, Stands base index (f :: outer) arena → post value arena) :
    Follows (Stands base index (f :: outer)) (leave index) (pure value) post := by
  refine Follows.looking fun s hs => Follows.inScope ?_
  rintro arena rfl
  obtain ⟨scope, hget, -⟩ := hs.chain.innermost
  refine ⟨scope, hget, .noting value (by simp) ?_⟩
  rintro _ rfl
  exact h _ hs

/-- What stood before a procedure stands after it, since all its scopes are younger. -/
theorem Stands.after {arena arena' : Arena} {inner : List Frame}
    (h : Stands base index (f :: outer) arena) (h' : Stands arena arena.size inner arena') :
    Stands base index (f :: outer) arena' := by
  obtain ⟨s, hget, -⟩ := h.chain.innermost
  have hindex : index < arena.size := Arena.lt_size_of_get? hget
  refine ⟨h.chain.congr fun i hi j hj => ?_, fun j hj => ?_⟩
  · cases hi
    exact h'.older j (by omega)
  · rw [h'.older j (by omega), h.older j hj]

mutual

theorem follows_checkDeclaration (base : Arena) (index : Nat) (f : Frame) (outer : List Frame)
    (d : Declaration) :
    Follows (Stands base index (f :: outer)) (checkDeclaration policy index d)
      (Scoping.declare policy outer f d) fun f' => Stands base index (f' :: outer) := by
  cases d with
  | «variable» b =>
    rw [checkDeclaration, Scoping.declare]
    exact follows_declareBinding b
  | procedure name line parameters declarations body =>
    rw [checkDeclaration, Scoping.declare]
    refine (follows_define _ line).bind fun f' => Follows.looking fun s hs => ?_
    -- the frame of the procedure lies on the stack from here to the end of its body
    refine (follows_enterProcedure hs name).quiet ?_
    refine (follows_declareBindings parameters).bind fun inner => ?_
    refine (follows_checkDeclarations _ _ inner _ declarations).bind fun inner' => ?_
    refine (follows_checkStatements body).bind fun _ => ?_
    exact follows_leave f' fun arena harena => hs.after harena

theorem follows_checkDeclarations (base : Arena) (index : Nat) (f : Frame) (outer : List Frame)
    (ds : List Declaration) :
    Follows (Stands base index (f :: outer)) (checkDeclarations policy index ds)
      (Scoping.declareAll policy outer f ds) fun f' => Stands base index (f' :: outer) := by
  cases ds with
  | nil =>
    rw [checkDeclarations, Scoping.declareAll]
    exact .done f fun _ h => h
  | cons first more =>
    rw [checkDeclarations, Scoping.declareAll]
    exact (follows_checkDeclaration base index f outer first).bind fun f' =>
      follows_checkDeclarations base index f' outer more

end

end Declarations

/-! ## Programs -/

/-- A program is entered with one scope, which shows the frame of the built-in types. -/
theorem follows_enterProgram (program : String) :
    Follows (· = Arena.empty) (enterProgram program) (pure ())
      fun _ => Stands Arena.empty 0 [globalFrame] := by
  refine Follows.quiet (.changing (fun arena => arena.push globalName 1 none) ?_)
    (.noting () (by simp) fun _ h => h)
  rintro _ rfl
  have hfound : (Arena.empty.push globalName 1 none).get? 0 =
      some (Scope.create globalName 1 none) := rfl
  have hparent : (Scope.create globalName 1 none).parent = none := rfl
  refine ⟨.scope hfound .outermost ?_ ?_, fun j hj => absurd hj (Nat.not_lt_zero j)⟩
  · simp [hparent]
  · rw [hparent]
    exact .nothing

theorem follows_checkProgram (policy : Policy) (p : Program) :
    Follows (· = Arena.empty) (checkProgram policy p) (Scoping.checkProgram policy p)
      fun _ _ => True := by
  refine (follows_enterProgram p.name).quiet ?_
  refine (follows_checkDeclarations _ 0 _ [] p.block.declarations).bind fun f => ?_
  have hend : Follows (Stands Arena.empty 0 [f])
      (checkStatements 0 p.block.body >>= fun _ => leave 0)
      (Scoping.checkStatements [f] p.block.body >>= fun _ => pure ()) fun _ _ => True :=
    (follows_checkStatements p.block.body).bind fun _ => follows_leave () fun _ _ => trivial
  rwa [bind_pure] at hend

end Analysis

/-- The result of an analysis and the names it has found are those of the rules of scoping. -/
theorem Analyzer.found_eq_check (a : Analyzer) (p : Program) :
    ((a.analyze p).1, (a.analyze p).2.state.resolutions) = Scoping.check a.policy p := by
  have h := Analysis.follows_checkProgram a.policy p .initial rfl
  have hnames : Analysis.State.initial.resolutions = [] := rfl
  rw [hnames] at h
  unfold Analyzer.analyze Scoping.check
  generalize Analysis.checkProgram a.policy p .initial = ended at h ⊢
  generalize Scoping.checkProgram a.policy p [] = ended' at h ⊢
  cases h with
  | ok names _ => exact Prod.ext rfl names
  | error names => exact Prod.ext rfl names

/-- Whatever an analyzer has done before, it accepts a program or rejects it with an error exactly
as the rules of scoping do, and in either case it has found the names that the rules find. -/
theorem Analyzer.analyze_eq_check (a : Analyzer) (p : Program) :
    (a.analyze p).1 = (Scoping.check a.policy p).1 ∧
      (a.analyze p).2.state.resolutions = (Scoping.check a.policy p).2 :=
  Prod.ext_iff.1 (a.found_eq_check p)

end PocketPascal
