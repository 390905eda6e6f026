import PocketPascal.Proofs.Lines.Relocation
import PocketPascal.Proofs.Run.Phases

/-!
# Scoping, evaluation and lines

Symbols and values have no lines, so a check and an evaluation of a program on other lines go the
same way, and end with the same values or with the same error on other lines.
-/

namespace PocketPascal

variable {f : Nat → Nat}

/-! ## Scoping -/

namespace Scoping

/-- Both checks have ended well with the same value, or the second one with the error of the first
one on other lines. The names that they have found do not matter. -/
inductive Matches (f : Nat → Nat) {α : Type} :
    EStateM.Result ScopeError (List Resolution) α → EStateM.Result ScopeError (List Resolution) α →
      Prop where
  | ok (value : α) (found found' : List Resolution) : Matches f (.ok value found) (.ok value found')
  | error (cause : ScopeError) (found found' : List Resolution) :
      Matches f (.error cause found) (.error (cause.relocate f) found')

/-- Whatever names have been found before, the second check ends as the first one does, up to lines.
-/
def Relocates (f : Nat → Nat) {α : Type} (check check' : Check α) : Prop :=
  ∀ found found', Matches f (check found) (check' found')

namespace Relocates

variable {α β : Type} {check check' : Check α}

theorem done (value : α) : Relocates f (pure value) (pure value) :=
  fun found found' => .ok value found found'

theorem failed (cause : ScopeError) :
    Relocates f (throw cause : Check α) (throw (cause.relocate f)) :=
  fun found found' => .error cause found found'

theorem bind {rest rest' : α → Check β} (h : Relocates f check check')
    (hrest : ∀ value, Relocates f (rest value) (rest' value)) :
    Relocates f (check >>= rest) (check' >>= rest') := by
  intro found found'
  have hfirst := h found found'
  show Matches f (EStateM.bind check rest found) (EStateM.bind check' rest' found')
  unfold EStateM.bind
  generalize check found = ended at hfirst
  generalize check' found' = ended' at hfirst
  cases hfirst with
  | ok value found₁ found₁' => exact hrest value found₁ found₁'
  | error cause found₁ found₁' => exact .error cause found₁ found₁'

end Relocates

variable {policy : Policy} {frames outer : List Frame} {frame : Frame}

theorem relocates_checkType (type : Name) :
    Relocates f (checkType frames type) (checkType frames (type.relocate f)) := by
  unfold checkType
  have htext : (type.relocate f).text = type.text := rfl
  rw [htext]
  split
  · exact .done ()
  · exact .failed _

theorem relocates_checkName (name : Name) :
    Relocates f (checkName frames name) (checkName frames (name.relocate f)) := by
  unfold checkName
  have htext : (name.relocate f).text = name.text := rfl
  rw [htext]
  cases find? frames name.text with
  | none => exact .failed _
  | some found => exact fun _ _ => .ok () _ _

theorem relocates_checkExpr (e : Expr) :
    Relocates f (checkExpr frames e) (checkExpr frames (e.relocate f)) := by
  induction e with
  | literal value line => exact .done ()
  | «variable» name => exact relocates_checkName name
  | unary op operand line ih => exact ih
  | binary op left right line ihl ihr => exact ihl.bind fun _ => ihr

mutual

theorem relocates_checkStatement (s : Statement) :
    Relocates f (checkStatement frames s) (checkStatement frames (s.relocate f)) := by
  cases s with
  | compound body =>
    rw [Statement.relocate, checkStatement, checkStatement]
    exact relocates_checkStatements body
  | assign target value line =>
    rw [Statement.relocate, checkStatement, checkStatement]
    exact (relocates_checkName target).bind fun _ => relocates_checkExpr value
  | empty =>
    rw [Statement.relocate, checkStatement]
    exact .done ()

theorem relocates_checkStatements (body : List Statement) :
    Relocates f (checkStatements frames body)
      (checkStatements frames (Statement.relocateAll f body)) := by
  cases body with
  | nil =>
    rw [Statement.relocateAll, checkStatements]
    exact .done ()
  | cons first more =>
    rw [Statement.relocateAll, checkStatements, checkStatements]
    exact (relocates_checkStatement first).bind fun _ => relocates_checkStatements more

end

theorem relocates_frameDeclare (symbol : Symbol) (line : Nat) :
    Relocates f (frame.declare policy symbol line) (frame.declare policy symbol (f line)) := by
  unfold Frame.declare
  split
  · exact .failed (.duplicateName symbol.name frame.name line)
  · exact .done _

theorem relocates_declareBinding (b : Binding) :
    Relocates f (declareBinding policy outer frame b)
      (declareBinding policy outer frame (b.relocate f)) :=
  (relocates_checkType b.type).bind fun _ => relocates_frameDeclare _ b.name.line

theorem relocates_declareBindings (bs : List Binding) :
    Relocates f (declareBindings policy outer frame bs)
      (declareBindings policy outer frame (bs.map (Binding.relocate f))) := by
  induction bs generalizing frame with
  | nil => exact .done frame
  | cons first more ih => exact (relocates_declareBinding first).bind fun _ => ih

mutual

theorem relocates_declare (outer : List Frame) (frame : Frame) (d : Declaration) :
    Relocates f (declare policy outer frame d) (declare policy outer frame (d.relocate f)) := by
  cases d with
  | «variable» b =>
    rw [Declaration.relocate, declare, declare]
    exact relocates_declareBinding b
  | procedure name line parameters declarations body =>
    have hsignature : (parameters.map (Binding.relocate f)).map
        (fun b => (⟨b.name.text, b.type.text⟩ : Parameter)) =
          parameters.map fun b => ⟨b.name.text, b.type.text⟩ := by
      rw [List.map_map]
      rfl
    rw [Declaration.relocate, declare, declare, hsignature]
    refine (relocates_frameDeclare _ line).bind fun g => ?_
    refine (relocates_declareBindings parameters).bind fun inner => ?_
    refine (relocates_declareAll _ inner declarations).bind fun inner' => ?_
    exact (relocates_checkStatements body).bind fun _ => .done g

theorem relocates_declareAll (outer : List Frame) (frame : Frame) (ds : List Declaration) :
    Relocates f (declareAll policy outer frame ds)
      (declareAll policy outer frame (Declaration.relocateAll f ds)) := by
  cases ds with
  | nil =>
    rw [Declaration.relocateAll, declareAll]
    exact .done frame
  | cons first more =>
    rw [Declaration.relocateAll, declareAll, declareAll]
    exact (relocates_declare outer frame first).bind fun g => relocates_declareAll outer g more

end

theorem relocates_checkProgram (p : Program) :
    Relocates f (checkProgram policy p) (checkProgram policy (p.relocate f)) :=
  (relocates_declareAll _ _ p.block.declarations).bind fun _ =>
    relocates_checkStatements p.block.body

/-- A program on other lines is accepted, or rejected with the same error on other lines. -/
theorem check_relocate (p : Program) :
    (check policy (p.relocate f)).1 = (check policy p).1.mapError (ScopeError.relocate f) := by
  have hcheck : Matches f (checkProgram policy p []) (checkProgram policy (p.relocate f) []) :=
    relocates_checkProgram p [] []
  unfold check
  generalize checkProgram policy p [] = ended at hcheck
  generalize checkProgram policy (p.relocate f) [] = ended' at hcheck
  cases hcheck with
  | ok _ _ _ => rfl
  | error _ _ _ => rfl

end Scoping

/-! ## Evaluation -/

theorem Value.at_relocate (line : Nat) (outcome : Except Fault Value) :
    Value.at (f line) outcome = (Value.at line outcome).mapError (RuntimeError.relocate f) := by
  cases outcome with
  | ok value => rfl
  | error fault => rfl

theorem Expr.eval_relocate (globals : Globals) (e : Expr) :
    (e.relocate f).eval globals = (e.eval globals).mapError (RuntimeError.relocate f) := by
  induction e with
  | literal value line => rfl
  | «variable» name =>
    have htext : (name.relocate f).text = name.text := rfl
    rw [relocate, eval, eval, htext]
    cases globals[name.text]? with
    | some value => rfl
    | none => rfl
  | unary op operand line ih =>
    rw [relocate, eval, eval, ih]
    cases operand.eval globals with
    | ok value => exact Value.at_relocate line _
    | error cause => rfl
  | binary op left right line ihl ihr =>
    rw [relocate, eval, eval, ihl, ihr]
    cases left.eval globals with
    | error cause => rfl
    | ok a =>
      cases right.eval globals with
      | error cause => rfl
      | ok b => exact Value.at_relocate line _

def Assignment.relocate (f : Nat → Nat) (a : Assignment) : Assignment :=
  ⟨a.target.relocate f, a.value.relocate f, f a.line⟩

mutual

theorem Statement.assignments_relocate (s : Statement) :
    (s.relocate f).assignments = s.assignments.map (Assignment.relocate f) := by
  cases s with
  | compound body =>
    rw [Statement.relocate, Statement.assignments, Statement.assignments]
    exact Statement.assignmentsOfList_relocate body
  | assign target value line =>
    rw [Statement.relocate, Statement.assignments, Statement.assignments]
    rfl
  | empty =>
    rw [Statement.relocate, Statement.assignments]
    rfl

theorem Statement.assignmentsOfList_relocate (body : List Statement) :
    Statement.assignmentsOfList (Statement.relocateAll f body) =
      (Statement.assignmentsOfList body).map (Assignment.relocate f) := by
  cases body with
  | nil =>
    rw [Statement.relocateAll, Statement.assignmentsOfList]
    rfl
  | cons first more =>
    rw [Statement.relocateAll, Statement.assignmentsOfList, Statement.assignmentsOfList,
      List.map_append, Statement.assignments_relocate first,
      Statement.assignmentsOfList_relocate more]

end

theorem Program.assignments_relocate (p : Program) :
    (p.relocate f).assignments = p.assignments.map (Assignment.relocate f) :=
  Statement.assignmentsOfList_relocate p.block.body

theorem Assignment.run_relocate (globals : Globals) (as : List Assignment) :
    run globals (as.map (relocate f)) =
      ((run globals as).1.mapError (RuntimeError.relocate f), (run globals as).2) := by
  induction as generalizing globals with
  | nil => rfl
  | cons a more ih =>
    have heval : (a.relocate f).value.eval globals = _ := a.value.eval_relocate globals
    rw [List.map_cons, run, run, heval]
    cases a.value.eval globals with
    | ok value => exact ih _
    | error cause => rfl

/-! ## Results -/

/-- A program on other lines has the same result, or the same error on other lines. -/
theorem Program.result_relocate (options : Options) (p : Program) :
    Program.result options (p.relocate f) =
      (Program.result options p).mapError (Error.relocate f) := by
  have hrun :
      (Outcome.result (Assignment.run ∅ (p.relocate f).assignments)).mapError Error.runtime =
      ((Outcome.result (Assignment.run ∅ p.assignments)).mapError Error.runtime).mapError
        (Error.relocate f) := by
    rw [Program.assignments_relocate, Assignment.run_relocate]
    obtain ⟨_ | _, globals⟩ := Assignment.run ∅ p.assignments
    · rfl
    · rfl
  rw [Program.result, Program.result]
  cases options.analyze with
  | false => exact hrun
  | true =>
    rw [if_pos rfl, if_pos rfl, Scoping.check_relocate]
    cases (Scoping.check options.policy p).1 with
    | error cause => rfl
    | ok _ => exact hrun

end PocketPascal
