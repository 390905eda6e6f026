import PocketPascal.Proofs.Syntax.Names

/-!
# Why an expression has no value

An evaluation goes from left to right and stops at the first part without a value: a variable that
has not been assigned, or an operation that fails for its operands. Either is written somewhere in
the expression, and the error is on its line.
-/

namespace PocketPascal

/-- The operators of an expression from left to right, by the kinds of the tokens that write them,
with their lines. -/
def Expr.operators : Expr → List (Kind × Nat)
  | .literal _ _ => []
  | .variable _ => []
  | .unary op operand line => (op.kind, line) :: operand.operators
  | .binary op left right line => left.operators ++ (op.kind, line) :: right.operators

/-- The kinds of the operators that can have the fault. -/
def Fault.kinds : Fault → List Kind
  | .divisionByZero => [.keyword .div, .mark .slash]
  | .overflow => [.mark .plus, .mark .minus, .mark .times, .keyword .div]

/-! ## Operations -/

namespace Value

section

variable {fault : Fault}

theorem fault_of_map {α : Type} {f : α → Value} {outcome : Except Fault α}
    (h : outcome.map f = .error fault) : outcome = .error fault := by
  cases outcome with
  | ok value => cases h
  | error fault' =>
    cases h
    rfl

theorem overflow_of_checked {n : Int} {f : Int64 → Value}
    (h : (Whole.checked n).map f = .error fault) : fault = .overflow :=
  (Whole.checked_eq_error_iff.1 (fault_of_map h)).1

theorem kind_mem_of_realBinary {op : BinaryOperator} {x y : Float}
    (h : realBinary op x y = .error fault) : op.kind ∈ fault.kinds := by
  cases op with
  | add => cases h
  | sub => cases h
  | mul => cases h
  | div =>
    rw [realBinary] at h
    split at h
    · cases h
      decide
    · cases h
  | slash =>
    rw [realBinary] at h
    split at h
    · cases h
      decide
    · cases h

theorem kind_mem_of_floorDiv {a b : Int64} (h : Whole.floorDiv a b = .error fault) :
    BinaryOperator.div.kind ∈ fault.kinds := by
  rw [Whole.floorDiv_eq] at h
  split at h
  · cases h
    decide
  · obtain ⟨rfl, -⟩ := Whole.checked_eq_error_iff.1 h
    decide

/-- Only divisions fail for their divisor, and a slash never overflows. -/
theorem kind_mem_of_binary {op : BinaryOperator} {left right : Value}
    (h : binary op left right = .error fault) : op.kind ∈ fault.kinds := by
  unfold binary at h
  split at h
  · obtain rfl := overflow_of_checked h
    decide
  · obtain rfl := overflow_of_checked h
    decide
  · obtain rfl := overflow_of_checked h
    decide
  · exact kind_mem_of_floorDiv (fault_of_map h)
  · exact kind_mem_of_realBinary (fault_of_map h)

theorem kind_mem_of_unary {op : UnaryOperator} {operand : Value}
    (h : unary op operand = .error fault) : op.kind ∈ fault.kinds := by
  unfold unary at h
  split at h
  · cases h
  · obtain rfl := overflow_of_checked h
    decide
  · cases h

end

theorem error_of_at {line : Nat} {outcome : Except Fault Value} {cause : RuntimeError}
    (h : Value.at line outcome = .error cause) :
    ∃ fault, outcome = .error fault ∧ cause = .arithmetic fault line := by
  cases outcome with
  | ok value => cases h
  | error fault =>
    cases h
    exact ⟨fault, rfl, rfl⟩

end Value

/-! ## Expressions -/

namespace Expr

/-- Where an expression fails, and why: at a variable that has not been assigned, at a sign or at an
operation, or in one of its operands, the left one first. -/
inductive Fails (globals : Globals) : Expr → RuntimeError → Prop where
  | missing {name : Name} (none : name.text ∉ globals) :
      Fails globals (.variable name) (.unassigned name.text name.line)
  | operand {op : UnaryOperator} {operand : Expr} {line : Nat} {cause : RuntimeError}
      (h : Fails globals operand cause) : Fails globals (.unary op operand line) cause
  | sign {op : UnaryOperator} {operand : Expr} {line : Nat} {value : Value} {fault : Fault}
      (hv : operand.eval globals = .ok value) (hf : Value.unary op value = .error fault) :
      Fails globals (.unary op operand line) (.arithmetic fault line)
  | left {op : BinaryOperator} {left right : Expr} {line : Nat} {cause : RuntimeError}
      (h : Fails globals left cause) : Fails globals (.binary op left right line) cause
  | right {op : BinaryOperator} {left right : Expr} {line : Nat} {a : Value} {cause : RuntimeError}
      (hl : left.eval globals = .ok a) (h : Fails globals right cause) :
      Fails globals (.binary op left right line) cause
  | operation {op : BinaryOperator} {left right : Expr} {line : Nat} {a b : Value} {fault : Fault}
      (hl : left.eval globals = .ok a) (hr : right.eval globals = .ok b)
      (hf : Value.binary op a b = .error fault) :
      Fails globals (.binary op left right line) (.arithmetic fault line)

variable {globals : Globals} {cause : RuntimeError} {e : Expr}

theorem fails_of_eval (h : e.eval globals = .error cause) : Fails globals e cause := by
  induction e with
  | literal value line => cases h
  | «variable» n =>
    rw [eval] at h
    cases hx : globals[n.text]? with
    | some value =>
      rw [hx] at h
      cases h
    | none =>
      rw [hx] at h
      cases h
      refine .missing fun hmem => ?_
      rw [Std.ExtTreeMap.getElem?_eq_some_getElem hmem] at hx
      cases hx
  | unary op operand line ih =>
    rw [eval] at h
    cases hv : operand.eval globals with
    | error cause' =>
      rw [hv] at h
      cases h
      exact .operand (ih hv)
    | ok value =>
      rw [hv] at h
      obtain ⟨fault, hf, rfl⟩ := Value.error_of_at h
      exact .sign hv hf
  | binary op left right line ihl ihr =>
    rw [eval] at h
    cases hl : left.eval globals with
    | error cause' =>
      rw [hl] at h
      cases h
      exact .left (ihl hl)
    | ok a =>
      rw [hl] at h
      cases hr : right.eval globals with
      | error cause' =>
        rw [hr] at h
        cases h
        exact .right hl (ihr hr)
      | ok b =>
        rw [hr] at h
        obtain ⟨fault, hf, rfl⟩ := Value.error_of_at h
        exact .operation hl hr hf

/-- A variable that is missing in an evaluation is a name in the expression. -/
theorem missing_of_eval {name : String} {line : Nat}
    (h : e.eval globals = .error (.unassigned name line)) :
    ⟨name, line⟩ ∈ e.names ∧ name ∉ globals := by
  replace h := fails_of_eval h
  generalize hcause : RuntimeError.unassigned name line = cause at h
  induction h with
  | missing none =>
    cases hcause
    exact ⟨List.mem_singleton.2 rfl, none⟩
  | operand _ ih => exact ih hcause
  | left _ ih => exact (ih hcause).imp_left (List.mem_append_left _)
  | right _ _ ih => exact (ih hcause).imp_left (List.mem_append_right _)
  | sign _ _ => cases hcause
  | operation _ _ _ => cases hcause

/-- An operation that fails in an evaluation is an operator in the expression. -/
theorem fault_of_eval {fault : Fault} {line : Nat}
    (h : e.eval globals = .error (.arithmetic fault line)) :
    ∃ kind ∈ fault.kinds, (kind, line) ∈ e.operators := by
  replace h := fails_of_eval h
  generalize hcause : RuntimeError.arithmetic fault line = cause at h
  induction h with
  | missing none => cases hcause
  | operand _ ih =>
    obtain ⟨kind, hk, hmem⟩ := ih hcause
    exact ⟨kind, hk, List.mem_cons_of_mem _ hmem⟩
  | left _ ih =>
    obtain ⟨kind, hk, hmem⟩ := ih hcause
    exact ⟨kind, hk, List.mem_append_left _ hmem⟩
  | right _ _ ih =>
    obtain ⟨kind, hk, hmem⟩ := ih hcause
    exact ⟨kind, hk, List.mem_append_right _ (List.mem_cons_of_mem _ hmem)⟩
  | sign _ hf =>
    cases hcause
    exact ⟨_, Value.kind_mem_of_unary hf, List.mem_cons_self⟩
  | operation _ _ hf =>
    cases hcause
    exact ⟨_, Value.kind_mem_of_binary hf, List.mem_append_right _ List.mem_cons_self⟩

end Expr

end PocketPascal
