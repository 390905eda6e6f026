import PocketPascal.Proofs.Evaluation.Assignments
import PocketPascal.Proofs.Evaluation.Faults
import PocketPascal.Proofs.Evaluation.Reruns

/-!
# The kind of a result

Which kind of number an expression has does not depend on how its evaluation goes. Floating-point
numbers come up in three ways: as literals, as quotients of a slash, and as values of variables. One
of these anywhere in an expression makes its result a floating-point number, and without them all
operations are on whole numbers; only those overflow. What holds of expressions goes over to
programs: the variables of a program without such literals and slashes are whole numbers.
-/

namespace PocketPascal

/-- Every variable has a whole number for its value. -/
def Globals.Integral (globals : Globals) : Prop :=
  ∀ (x : String) (value : Value), globals[x]? = some value → value.isReal = false

namespace Expr

/-- The nodes of an expression, operands before their operator and the left one first. -/
def nodes : Expr → List Expr
  | .literal value line => [.literal value line]
  | .variable name => [.variable name]
  | .unary op operand line => operand.nodes ++ [.unary op operand line]
  | .binary op left right line => left.nodes ++ right.nodes ++ [.binary op left right line]

/-- Whether a node gives a floating-point number whatever the variables are: a literal of this kind
or a slash. -/
def makesReal : Expr → Bool
  | .literal value _ => value.isReal
  | .binary op _ _ _ => op = .slash
  | _ => false

/-- Whether a node is a variable with a floating-point number for its value. -/
def readsReal (globals : Globals) : Expr → Bool
  | .variable name => globals[name.text]?.any Value.isReal
  | _ => false

/-- Whether floating-point numbers come up anywhere in an expression. -/
def touchesReal (globals : Globals) (e : Expr) : Bool :=
  e.nodes.any fun node => node.makesReal || node.readsReal globals

section

variable (globals : Globals)

@[simp] theorem touchesReal_literal (value : Value) (line : Nat) :
    touchesReal globals (.literal value line) = value.isReal := by
  simp [touchesReal, nodes, makesReal, readsReal]

@[simp] theorem touchesReal_variable (name : Name) :
    touchesReal globals (.variable name) = globals[name.text]?.any Value.isReal := by
  simp [touchesReal, nodes, makesReal, readsReal]

@[simp] theorem touchesReal_unary (op : UnaryOperator) (operand : Expr) (line : Nat) :
    touchesReal globals (.unary op operand line) = operand.touchesReal globals := by
  simp [touchesReal, nodes, makesReal, readsReal]

@[simp] theorem touchesReal_binary (op : BinaryOperator) (left right : Expr) (line : Nat) :
    touchesReal globals (.binary op left right line) =
      (left.touchesReal globals || right.touchesReal globals || decide (op = .slash)) := by
  simp [touchesReal, nodes, makesReal, readsReal, Bool.or_assoc]

end

end Expr

/-! ## Operations -/

namespace Value

variable {left right v : Value} {op : BinaryOperator}

theorem binary_of_integers (h : op ≠ .slash) (a b : Int64) :
    ∃ outcome : Except Fault Int64, binary op (.integer a) (.integer b) = outcome.map .integer := by
  cases op with
  | slash => exact absurd rfl h
  | _ => exact ⟨_, rfl⟩

theorem binary_of_real (h : left.isReal || right.isReal || decide (op = .slash)) :
    binary op left right = (realBinary op left.toReal right.toReal).map .real := by
  cases left with
  | real x => cases op <;> rfl
  | integer a =>
    cases right with
    | real y => cases op <;> rfl
    | integer b =>
      obtain rfl : op = .slash := by simpa [isReal] using h
      rfl

/-- An operation is one on whole numbers or one on floating-point numbers, as its operands and the
operator say. -/
theorem binary_cases (op : BinaryOperator) (left right : Value) :
    (∃ a b, left = .integer a ∧ right = .integer b ∧ op ≠ .slash) ∨
      left.isReal || right.isReal || decide (op = .slash) := by
  cases left with
  | real x => exact .inr rfl
  | integer a =>
    cases right with
    | real y => exact .inr rfl
    | integer b =>
      by_cases hop : op = .slash
      · exact .inr (by simp [hop])
      · exact .inl ⟨a, b, rfl, rfl, hop⟩

theorem ok_of_map {α : Type} {f : α → Value} {outcome : Except Fault α}
    (h : outcome.map f = .ok v) : ∃ x, outcome = .ok x ∧ v = f x := by
  cases outcome with
  | ok x =>
    cases h
    exact ⟨x, rfl, rfl⟩
  | error fault => cases h

theorem ok_of_at {line : Nat} {outcome : Except Fault Value} (h : Value.at line outcome = .ok v) :
    outcome = .ok v := by
  cases outcome with
  | ok value =>
    cases h
    rfl
  | error fault => cases h

theorem isReal_of_binary (h : binary op left right = .ok v) :
    v.isReal = (left.isReal || right.isReal || decide (op = .slash)) := by
  rcases binary_cases op left right with ⟨a, b, rfl, rfl, hop⟩ | hreal
  · obtain ⟨outcome, hbinary⟩ := binary_of_integers hop a b
    rw [hbinary] at h
    obtain ⟨n, -, rfl⟩ := ok_of_map h
    simp [isReal, hop]
  · rw [binary_of_real hreal] at h
    obtain ⟨x, -, rfl⟩ := ok_of_map h
    exact hreal.symm

theorem isReal_of_unary {op : UnaryOperator} {operand : Value} (h : unary op operand = .ok v) :
    v.isReal = operand.isReal := by
  cases op with
  | plus =>
    cases h
    rfl
  | minus =>
    cases operand with
    | real x =>
      cases h
      rfl
    | integer n =>
      obtain ⟨m, -, rfl⟩ := ok_of_map h
      rfl

/-- Operations on floating-point numbers do not overflow. -/
theorem realBinary_ne_overflow (op : BinaryOperator) (x y : Float) :
    realBinary op x y ≠ .error .overflow := by
  unfold realBinary
  cases op with
  | add => exact nofun
  | sub => exact nofun
  | mul => exact nofun
  | div =>
    dsimp only
    split <;> exact nofun
  | slash =>
    dsimp only
    split <;> exact nofun

theorem integers_of_overflow (h : binary op left right = .error .overflow) :
    left.isReal = false ∧ right.isReal = false ∧ op ≠ .slash := by
  rcases binary_cases op left right with ⟨a, b, rfl, rfl, hop⟩ | hreal
  · exact ⟨rfl, rfl, hop⟩
  · rw [binary_of_real hreal] at h
    exact absurd (fault_of_map h) (realBinary_ne_overflow op _ _)

theorem integer_of_overflow {op : UnaryOperator} {operand : Value}
    (h : unary op operand = .error .overflow) : op = .minus ∧ operand.isReal = false := by
  cases op with
  | plus => cases h
  | minus =>
    cases operand with
    | real x => cases h
    | integer n => exact ⟨rfl, rfl⟩

end Value

/-! ## Expressions -/

namespace Expr

variable {globals : Globals} {e : Expr}

theorem ok_of_eval_unary {op : UnaryOperator} {operand : Expr} {line : Nat} {v : Value}
    (h : (Expr.unary op operand line).eval globals = .ok v) :
    ∃ value, operand.eval globals = .ok value ∧ Value.unary op value = .ok v := by
  rw [eval] at h
  cases hv : operand.eval globals with
  | error cause =>
    rw [hv] at h
    cases h
  | ok value =>
    rw [hv] at h
    exact ⟨value, rfl, Value.ok_of_at h⟩

theorem ok_of_eval_binary {op : BinaryOperator} {left right : Expr} {line : Nat} {v : Value}
    (h : (Expr.binary op left right line).eval globals = .ok v) :
    ∃ a b, left.eval globals = .ok a ∧ right.eval globals = .ok b ∧ Value.binary op a b = .ok v := by
  rw [eval] at h
  cases hl : left.eval globals with
  | error cause =>
    rw [hl] at h
    cases h
  | ok a =>
    rw [hl] at h
    cases hr : right.eval globals with
    | error cause =>
      rw [hr] at h
      cases h
    | ok b =>
      rw [hr] at h
      exact ⟨a, b, rfl, rfl, Value.ok_of_at h⟩

/-- A result is a floating-point number if and only if such numbers come up in the expression. -/
theorem isReal_of_eval {v : Value} (h : e.eval globals = .ok v) :
    v.isReal = e.touchesReal globals := by
  induction e generalizing v with
  | literal value line =>
    cases h
    rw [touchesReal_literal]
  | «variable» name =>
    rw [touchesReal_variable]
    rw [eval] at h
    cases hx : globals[name.text]? with
    | none =>
      rw [hx] at h
      cases h
    | some value =>
      rw [hx] at h
      cases h
      rfl
  | unary op operand line ih =>
    obtain ⟨value, hv, hunary⟩ := ok_of_eval_unary h
    rw [touchesReal_unary, ← ih hv]
    exact Value.isReal_of_unary hunary
  | binary op left right line ihl ihr =>
    obtain ⟨a, b, hl, hr, hbinary⟩ := ok_of_eval_binary h
    rw [touchesReal_binary, ← ihl hl, ← ihr hr]
    exact Value.isReal_of_binary hbinary

/-- The node is a minus sign or an operation other than a slash, on the given line, and no
floating-point numbers come up in its operands. -/
inductive IsWhole (globals : Globals) (line : Nat) : Expr → Prop where
  /-- A minus sign in front of an operand. -/
  | minus {operand : Expr} (h : operand.touchesReal globals = false) :
      IsWhole globals line (.unary .minus operand line)
  /-- An operation on two operands. -/
  | operation {op : BinaryOperator} {left right : Expr} (hop : op ≠ .slash)
      (hl : left.touchesReal globals = false) (hr : right.touchesReal globals = false) :
      IsWhole globals line (.binary op left right line)

/-- What overflows in an evaluation is an operation on whole numbers. -/
theorem isWhole_of_overflow {line : Nat}
    (h : e.eval globals = .error (.arithmetic .overflow line)) :
    ∃ node ∈ e.nodes, node.IsWhole globals line := by
  replace h := fails_of_eval h
  generalize hcause : RuntimeError.arithmetic .overflow line = cause at h
  induction h with
  | missing none => cases hcause
  | operand _ ih =>
    obtain ⟨node, hmem, hnode⟩ := ih hcause
    exact ⟨node, List.mem_append_left _ hmem, hnode⟩
  | left _ ih =>
    obtain ⟨node, hmem, hnode⟩ := ih hcause
    exact ⟨node, List.mem_append_left _ (List.mem_append_left _ hmem), hnode⟩
  | right _ _ ih =>
    obtain ⟨node, hmem, hnode⟩ := ih hcause
    exact ⟨node, List.mem_append_left _ (List.mem_append_right _ hmem), hnode⟩
  | sign hv hf =>
    cases hcause
    obtain ⟨rfl, hwhole⟩ := Value.integer_of_overflow hf
    rw [isReal_of_eval hv] at hwhole
    exact ⟨_, List.mem_append_right _ (List.mem_singleton_self _), .minus hwhole⟩
  | operation hl hr hf =>
    cases hcause
    obtain ⟨hleft, hright, hop⟩ := Value.integers_of_overflow hf
    rw [isReal_of_eval hl] at hleft
    rw [isReal_of_eval hr] at hright
    exact ⟨_, List.mem_append_right _ (List.mem_singleton_self _), .operation hop hleft hright⟩

theorem touchesReal_of_integral (hg : globals.Integral)
    (he : ∀ node ∈ e.nodes, node.makesReal = false) : e.touchesReal globals = false := by
  rw [touchesReal, List.any_eq_false]
  intro node hnode
  rw [he node hnode, Bool.false_or]
  cases node with
  | «variable» name =>
    cases hx : globals[name.text]? with
    | none => simp [readsReal, hx]
    | some value => simp [readsReal, hx, hg _ value hx]
  | _ => simp [readsReal]

end Expr

/-! ## Programs -/

/-- Assignments whose expressions hold no floating-point literals and no slashes keep all variables
whole numbers. -/
theorem Assignment.integral_of_run {globals : Globals} {as : List Assignment}
    (hg : globals.Integral) (has : ∀ a ∈ as, ∀ node ∈ a.value.nodes, node.makesReal = false) :
    (run globals as).2.Integral := by
  induction as generalizing globals with
  | nil => exact hg
  | cons a more ih =>
    obtain ⟨ha, hmore⟩ := List.forall_mem_cons.1 has
    rw [run]
    cases hv : a.value.eval globals with
    | error cause => exact hg
    | ok result =>
      refine ih (fun x value hx => ?_) hmore
      rw [Std.ExtTreeMap.getElem?_insert] at hx
      split at hx
      · cases hx
        rw [Expr.isReal_of_eval hv]
        exact Expr.touchesReal_of_integral hg ha
      · exact hg x value hx

open Execution

/-- The kind of a result is known before the evaluation.

* A result is a floating-point number if and only if a literal of this kind, a slash or a variable
  with such a value stands anywhere in the expression.
* What overflows is a minus sign or an operation other than a slash, on the line of the error, and
  none of the three stands in its operands.
* The variables of a program without such literals and slashes in its outermost body are whole
  numbers, whether its execution ends well or not. -/
theorem kind_of_result (globals : Globals) (e : Expr) (p : Program) :
    (∀ v, e.eval globals = .ok v → (v.isReal = true ↔ e.touchesReal globals = true)) ∧
    (∀ line, e.eval globals = .error (.arithmetic .overflow line) →
      ∃ node ∈ e.nodes, node.IsWhole globals line) ∧
    ((∀ a ∈ p.assignments, ∀ node ∈ a.value.nodes, node.makesReal = false) →
      (outcome p.execute .initial).2.Integral) := by
  refine ⟨fun v h => ?_, fun line h => Expr.isWhole_of_overflow h, fun h => ?_⟩
  · rw [Expr.isReal_of_eval h]
  · rw [outcome_execute]
    refine Assignment.integral_of_run (fun x value hx => ?_) h
    rw [Machine.initial, Std.ExtTreeMap.getElem?_empty] at hx
    cases hx

/-- The sum of the largest whole number and one on line 3, divided by a slash on line 4, plus a
floating-point literal. -/
def overflowingSum : Expr :=
  .binary .add
    (.binary .slash
      (.binary .add (.literal (.integer Int64.maxValue) 3) (.literal (.integer 1) 3) 3)
      (.literal (.integer 2) 4) 4)
    (.literal (.real 1.5) 5) 5

/-- A whole number and a floating-point literal have a floating-point sum; the sum of whole numbers
overflows though a slash stands around it; and the program that fails to divide leaves whole numbers.
-/
theorem kind_of_result_samples :
    (Expr.binary .add (.literal (.integer 2) 1) (.literal (.real 1.5) 1) 1).eval ∅ =
      .ok (.real (Float.ofInt 2 + 1.5)) ∧
    (Expr.binary .add (.literal (.integer 2) 1) (.literal (.real 1.5) 1) 1).touchesReal ∅ = true ∧
    overflowingSum.eval ∅ = .error (.arithmetic .overflow 3) ∧
    (∃ node ∈ overflowingSum.nodes, node.IsWhole ∅ 3) ∧
    (outcome failingDivision.execute .initial).1 = .error (.arithmetic .divisionByZero 3) ∧
    (outcome failingDivision.execute .initial).2.Integral := by
  have hsum : (Expr.binary .add (.literal (.integer 2) 1) (.literal (.real 1.5) 1) 1).eval ∅ =
      .ok (.real (Float.ofInt 2 + 1.5)) := rfl
  have hoverflow : overflowingSum.eval ∅ = .error (.arithmetic .overflow 3) := by decide +kernel
  have hwhole : ∀ a ∈ failingDivision.assignments, ∀ node ∈ a.value.nodes,
      node.makesReal = false := by decide
  exact ⟨hsum, ((kind_of_result ∅ _ failingDivision).1 _ hsum).1 rfl, hoverflow,
    (kind_of_result ∅ _ failingDivision).2.1 3 hoverflow, rfl,
    (kind_of_result ∅ overflowingSum failingDivision).2.2 hwhole⟩

end PocketPascal
