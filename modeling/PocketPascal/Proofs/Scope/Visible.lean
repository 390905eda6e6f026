import PocketPascal.Proofs.Syntax.Names
import PocketPascal.Scope.Rules

/-!
# What an accepted program uses

The body of a program is checked when all its procedures have been left, in the outermost frame
alone. So if the check ends well, the names that the body uses are names of this frame, and the
names of this frame are those of the declarations outside of all procedures, besides the built-in
types.
-/

namespace PocketPascal

/-- The name that a declaration declares in the scope around it. -/
def Declaration.name : Declaration → String
  | .variable b => b.name.text
  | .procedure name _ _ _ _ => name

/-- The names that a program declares outside of its procedures. -/
def Program.declared (p : Program) : List String := p.block.declarations.map Declaration.name

namespace Scoping

/-- If a part of the check ends well, `post` holds of its value. -/
def Ensures {α : Type} (check : Check α) (post : α → Prop) : Prop :=
  ∀ found value found', check found = .ok value found' → post value

namespace Ensures

variable {α β : Type} {check : Check α} {post : α → Prop}

theorem done {value : α} (h : post value) : Ensures (pure value) post := by
  intro found value' found' hr
  cases hr
  exact h

theorem failed (cause : ScopeError) : Ensures (throw cause) post := by
  intro found value found' hr
  cases hr

theorem any (check : Check α) : Ensures check fun _ => True := fun _ _ _ _ => trivial

theorem bind {rest : α → Check β} {post' : β → Prop} (first : Ensures check post)
    (second : ∀ value, post value → Ensures (rest value) post') :
    Ensures (check >>= rest) post' := by
  intro found value found' hr
  have hbind : EStateM.bind check rest found = .ok value found' := hr
  rw [EStateM.bind] at hbind
  cases hc : check found with
  | ok middle found₁ =>
    rw [hc] at hbind
    exact second middle (first found middle found₁ hc) found₁ value found' hbind
  | error cause found₁ =>
    rw [hc] at hbind
    cases hbind

end Ensures

/-! ## Frames -/

/-- The names that are declared in a frame, the latest first. -/
def Frame.names (f : Frame) : List String := f.symbols.map Symbol.name

variable {policy : Policy} {f : Frame} {outer : List Frame}

theorem Frame.ensures_declare (symbol : Symbol) (line : Nat) :
    Ensures (f.declare policy symbol line) fun f' => f'.names = symbol.name :: f.names := by
  rw [Frame.declare]
  split
  · exact .failed _
  · exact .done rfl

theorem ensures_declareBinding (b : Binding) :
    Ensures (declareBinding policy outer f b) fun f' => f'.names = b.name.text :: f.names :=
  (Ensures.any _).bind fun _ _ => Frame.ensures_declare _ _

/-- A declaration adds its own name to the frame, and a procedure nothing of what is inside it. -/
theorem ensures_declare (d : Declaration) :
    Ensures (declare policy outer f d) fun f' => f'.names = d.name :: f.names := by
  cases d with
  | «variable» b =>
    rw [declare]
    exact ensures_declareBinding b
  | procedure name line parameters declarations body =>
    rw [declare]
    refine (Frame.ensures_declare _ line).bind fun f' hf' => ?_
    refine (Ensures.any _).bind fun _ _ => (Ensures.any _).bind fun _ _ => ?_
    exact (Ensures.any _).bind fun _ _ => .done hf'

theorem ensures_declareAll (ds : List Declaration) :
    Ensures (declareAll policy outer f ds) fun f' =>
      ∀ x ∈ f'.names, x ∈ ds.map Declaration.name ∨ x ∈ f.names := by
  induction ds generalizing f with
  | nil =>
    rw [declareAll]
    exact .done fun x hx => .inr hx
  | cons first more ih =>
    rw [declareAll]
    refine (ensures_declare first).bind fun f₁ hf₁ => ?_
    intro found f' found' hr x hx
    rw [List.map_cons]
    rcases ih found f' found' hr x hx with hmore | hf
    · exact .inl (List.mem_cons_of_mem _ hmore)
    · rw [hf₁] at hf
      rcases List.mem_cons.1 hf with rfl | hold
      · exact .inl List.mem_cons_self
      · exact .inr hold

/-! ## Names in the outermost frame -/

theorem ensures_checkName (n : Name) :
    Ensures (checkName [f] n) fun _ => n.text ∈ f.names := by
  rw [checkName, find?]
  cases hl : f.lookup? n.text with
  | none => exact .failed _
  | some symbol =>
    intro _ _ _ _
    have hmem : symbol ∈ f.symbols := List.mem_of_find?_eq_some hl
    have hname : symbol.name = n.text := by simpa using List.find?_some hl
    exact List.mem_map.2 ⟨symbol, hmem, hname⟩

theorem ensures_checkExpr (e : Expr) :
    Ensures (checkExpr [f] e) fun _ => ∀ n ∈ e.names, n.text ∈ f.names := by
  induction e with
  | literal value line =>
    intro _ _ _ _ n hn
    cases hn
  | «variable» name =>
    intro found value found' hr n hn
    rw [List.mem_singleton.1 hn]
    exact ensures_checkName name found value found' hr
  | unary op operand line ih => exact ih
  | binary op left right line ihl ihr =>
    refine ihl.bind fun _ hleft => ?_
    intro found value found' hr n hn
    rcases List.mem_append.1 hn with hn | hn
    · exact hleft n hn
    · exact ihr found value found' hr n hn

mutual

theorem ensures_checkStatement (s : Statement) :
    Ensures (checkStatement [f] s) fun _ =>
      ∀ a ∈ s.assignments, ∀ n ∈ a.names, n.text ∈ f.names := by
  cases s with
  | compound body =>
    rw [checkStatement, Statement.assignments]
    exact ensures_checkStatements body
  | assign target value line =>
    rw [checkStatement, Statement.assignments]
    refine (ensures_checkName target).bind fun _ htarget => ?_
    intro found _ found' hr a ha n hn
    rw [List.mem_singleton.1 ha] at hn
    rcases List.mem_cons.1 hn with rfl | hn
    · exact htarget
    · exact ensures_checkExpr value found _ found' hr n hn
  | empty =>
    rw [Statement.assignments]
    intro _ _ _ _ a ha
    cases ha

theorem ensures_checkStatements (body : List Statement) :
    Ensures (checkStatements [f] body) fun _ =>
      ∀ a ∈ Statement.assignmentsOfList body, ∀ n ∈ a.names, n.text ∈ f.names := by
  cases body with
  | nil =>
    rw [Statement.assignmentsOfList]
    intro _ _ _ _ a ha
    cases ha
  | cons first more =>
    rw [checkStatements, Statement.assignmentsOfList]
    refine (ensures_checkStatement first).bind fun _ hfirst => ?_
    intro found _ found' hr a ha
    rcases List.mem_append.1 ha with ha | ha
    · exact hfirst a ha
    · exact ensures_checkStatements more found _ found' hr a ha

end

/-! ## Programs -/

/-- The names that an accepted program uses outside of its procedures are declared there, or they
are names of built-in types. -/
theorem declared_of_check {p : Program} (h : (check policy p).1 = .ok ()) :
    ∀ a ∈ p.assignments, ∀ n ∈ a.names, n.text ∈ p.declared ∨ n.text ∈ builtinTypes := by
  have hends : Ensures (checkProgram policy p) fun _ =>
      ∀ a ∈ p.assignments, ∀ n ∈ a.names, n.text ∈ p.declared ∨ n.text ∈ builtinTypes := by
    refine (ensures_declareAll _).bind fun f hf => ?_
    intro found _ found' hr a ha n hn
    rcases hf _ (ensures_checkStatements _ found _ found' hr a ha n hn) with hx | hx
    · exact .inl hx
    · right
      simpa [Frame.names, globalFrame, builtinTypes, or_comm] using hx
  unfold check at h
  cases hc : checkProgram policy p [] with
  | ok _ found => exact hends _ _ _ hc
  | error cause found =>
    rw [hc] at h
    cases h

end Scoping

end PocketPascal
