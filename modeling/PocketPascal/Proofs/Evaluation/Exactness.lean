import PocketPascal.Proofs.Evaluation.Kinds

/-!
# Whole numbers without bounds

Where no floating-point numbers come up, an evaluation does what school arithmetic does, as far as
64 bits go. The exact value of an expression is computed over the whole numbers without bounds, with
quotients rounded down. A node offends if it is a variable without a value, a division by zero, or if
its exact value cannot be held. Operands stand before their operators, so the first node that offends
is the one at which the evaluation stops; and if none does, the result is the exact value.
-/

namespace PocketPascal

open Whole

/-! ## Operations -/

/-- The exact value of an operation: quotients are rounded down, and there is none for a divisor of
zero. A slash has no place among whole numbers. -/
def BinaryOperator.exactValue? (op : BinaryOperator) (a b : Int) : Option Int :=
  match op with
  | .add => some (a + b)
  | .sub => some (a - b)
  | .mul => some (a * b)
  | .div => if b = 0 then none else some (a.fdiv b)
  | .slash => none

/-- The exact value under a sign. -/
def UnaryOperator.exactValue (op : UnaryOperator) (n : Int) : Int :=
  match op with
  | .plus => n
  | .minus => -n

namespace Value

theorem unary_integer (op : UnaryOperator) (n : Int64) :
    unary op (.integer n) = (checked (op.exactValue n.toInt)).map .integer := by
  cases op with
  | plus =>
    have hn : checked n.toInt = .ok n := checked_eq_ok_iff.2 rfl
    rw [UnaryOperator.exactValue, hn]
    rfl
  | minus => rfl

theorem binary_integer {op : BinaryOperator} (h : op ≠ .slash) (a b : Int64) :
    binary op (.integer a) (.integer b) =
      match op.exactValue? a.toInt b.toInt with
      | some n => (checked n).map .integer
      | none => .error .divisionByZero := by
  cases op with
  | slash => exact absurd rfl h
  | div =>
    have hzero : b = 0 ↔ b.toInt = 0 := by rw [← Int64.toInt_inj, Int64.toInt_zero]
    rw [binary, floorDiv_eq, BinaryOperator.exactValue?]
    by_cases hb : b = 0
    · rw [if_pos hb, if_pos (hzero.1 hb)]
      rfl
    · rw [if_neg hb, if_neg (mt hzero.2 hb)]
  | _ => rfl

end Value

theorem BinaryOperator.exactValue?_eq_none_iff {op : BinaryOperator} (h : op ≠ .slash) {a b : Int} :
    op.exactValue? a b = none ↔ op = .div ∧ b = 0 := by
  cases op with
  | slash => exact absurd rfl h
  | div => simp [exactValue?]
  | _ => simp [exactValue?]

/-! ## Expressions -/

namespace Expr

/-- The exact value of an expression, if all its variables are whole numbers and no divisor in it is
zero. -/
def exactValue? (globals : Globals) : Expr → Option Int
  | .literal (.integer n) _ => some n.toInt
  | .literal (.real _) _ => none
  | .variable name =>
      match globals[name.text]? with
      | some (.integer n) => some n.toInt
      | _ => none
  | .unary op operand _ => (operand.exactValue? globals).map op.exactValue
  | .binary op left right _ => do
      op.exactValue? (← left.exactValue? globals) (← right.exactValue? globals)

/-- The overflow of a node whose exact value cannot be held. -/
def overflow? (globals : Globals) (node : Expr) : Option RuntimeError :=
  match node.exactValue? globals with
  | some n => if InRange n then none else some (.arithmetic .overflow node.line)
  | none => none

/-- What is wrong with a node itself: it is a variable without a value, a division by a divisor that
is exactly zero, or its exact value cannot be held. -/
def offence? (globals : Globals) (node : Expr) : Option RuntimeError :=
  match node with
  | .variable name =>
      if name.text ∈ globals then none else some (.unassigned name.text name.line)
  | .binary .div _ right line =>
      if right.exactValue? globals = some 0 then some (.arithmetic .divisionByZero line)
      else node.overflow? globals
  | _ => node.overflow? globals

/-- The error of the first node that offends, if one does. -/
def firstOffence? (globals : Globals) (e : Expr) : Option RuntimeError :=
  e.nodes.findSome? (offence? globals)

/-- All variables have values, no divisor is zero, and every exact value can be held. -/
structure Regular (globals : Globals) (e : Expr) : Prop where
  /-- Every variable has a value. -/
  bound : ∀ name, .variable name ∈ e.nodes → name.text ∈ globals
  /-- No divisor is exactly zero. -/
  divisors : ∀ left right line, .binary .div left right line ∈ e.nodes →
    right.exactValue? globals ≠ some 0
  /-- The exact value of every node can be held. -/
  range : ∀ node ∈ e.nodes, ∀ n, node.exactValue? globals = some n → InRange n

/-- The evaluation ends with the error of the first node that offends, and with the exact value if
none does. -/
def IsExact (globals : Globals) (e : Expr) : Prop :=
  match e.firstOffence? globals with
  | some cause => e.eval globals = .error cause
  | none => ∃ n : Int64, e.exactValue? globals = some n.toInt ∧ e.eval globals = .ok (.integer n)

variable {globals : Globals}

/-! ### Nodes that do not offend -/

theorem overflow?_eq_none_iff {node : Expr} :
    node.overflow? globals = none ↔ ∀ n, node.exactValue? globals = some n → InRange n := by
  rw [overflow?]
  cases node.exactValue? globals with
  | none => simp
  | some n => simp

theorem inRange_of_variable {name : Name} {n : Int}
    (h : exactValue? globals (.variable name) = some n) : InRange n := by
  rw [exactValue?] at h
  split at h
  · cases h
    exact inRange_toInt _
  · cases h

/-- A node that does not offend is as the three conditions ask for. -/
theorem offence?_eq_none_iff {node : Expr} :
    offence? globals node = none ↔
      (∀ name, node = .variable name → name.text ∈ globals) ∧
      (∀ left right line, node = .binary .div left right line → right.exactValue? globals ≠ some 0) ∧
      ∀ n, node.exactValue? globals = some n → InRange n := by
  rw [← overflow?_eq_none_iff]
  unfold offence?
  split
  · rename_i name
    have hrange : overflow? globals (.variable name) = none :=
      overflow?_eq_none_iff.2 fun n => inRange_of_variable
    simp [hrange]
  · rename_i left right line
    by_cases hzero : right.exactValue? globals = some 0 <;> simp [hzero]
  · rename_i hvariable hdiv
    exact ⟨fun h => ⟨fun name hn => absurd hn (hvariable name),
      fun left right line hd => absurd hd (hdiv left right line), h⟩, fun h => h.2.2⟩

theorem regular_iff {e : Expr} : e.Regular globals ↔ e.firstOffence? globals = none := by
  simp only [firstOffence?, List.findSome?_eq_none_iff, offence?_eq_none_iff]
  constructor
  · rintro ⟨hbound, hdivisors, hrange⟩ node hnode
    refine ⟨?_, ?_, hrange node hnode⟩
    · rintro name rfl
      exact hbound name hnode
    · rintro left right line rfl
      exact hdivisors left right line hnode
  · intro h
    refine ⟨fun name hnode => (h _ hnode).1 name rfl, fun left right line hnode => ?_,
      fun node hnode => (h node hnode).2.2⟩
    exact (h _ hnode).2.1 left right line rfl

/-! ### Evaluation, node by node -/

theorem isExact_literal {value : Value} (h : value.isReal = false) (line : Nat) :
    IsExact globals (.literal value line) := by
  cases value with
  | real x => cases h
  | integer n =>
    have hnone : firstOffence? globals (.literal (.integer n) line) = none := by
      simp [firstOffence?, nodes, offence?, overflow?, exactValue?, inRange_toInt]
    rw [IsExact, hnone]
    exact ⟨n, rfl, rfl⟩

theorem isExact_variable {name : Name} (h : touchesReal globals (.variable name) = false) :
    IsExact globals (.variable name) := by
  have hfirst : firstOffence? globals (.variable name) =
      if name.text ∈ globals then none else some (.unassigned name.text name.line) := by
    rw [firstOffence?, nodes, List.findSome?_singleton, offence?]
  have hmem : name.text ∈ globals ↔ globals[name.text]?.isSome :=
    Std.ExtTreeMap.mem_iff_isSome_getElem?
  rw [touchesReal_variable] at h
  cases hx : globals[name.text]? with
  | none =>
    rw [hx] at hmem
    rw [IsExact, hfirst, if_neg (by simp [hmem])]
    show eval globals (.variable name) = _
    rw [eval, hx]
  | some value =>
    rw [hx] at hmem
    rw [IsExact, hfirst, if_pos (by simp [hmem])]
    cases value with
    | real x =>
      rw [hx] at h
      cases h
    | integer n =>
      refine ⟨n, ?_, ?_⟩
      · rw [exactValue?, hx]
      · rw [eval, hx]

/-- A number that is checked on a line is the result, or it offends there. -/
theorem isExact_of_checked {e : Expr} {n : Int} (hexact : e.exactValue? globals = some n)
    (hfirst : e.firstOffence? globals = e.overflow? globals)
    (heval : e.eval globals = Value.at e.line ((checked n).map .integer)) : IsExact globals e := by
  rw [IsExact, hfirst, overflow?, hexact, heval]
  by_cases hn : InRange n
  · have hok : checked n = .ok (Int64.ofInt n) := checked_eq_ok_iff.2 (toInt_ofInt hn)
    simp only [if_pos hn, hok]
    exact ⟨Int64.ofInt n, by rw [toInt_ofInt hn], rfl⟩
  · have herror : checked n = .error .overflow := checked_eq_error_iff.2 ⟨rfl, hn⟩
    simp only [if_neg hn, herror]
    rfl

theorem IsExact.unary {operand : Expr} (h : IsExact globals operand) (op : UnaryOperator)
    (line : Nat) : IsExact globals (.unary op operand line) := by
  have hfirst : firstOffence? globals (.unary op operand line) =
      (operand.firstOffence? globals).or (overflow? globals (.unary op operand line)) := by
    rw [firstOffence?, nodes, List.findSome?_append, List.findSome?_singleton]
    rfl
  rw [IsExact] at h
  cases ho : operand.firstOffence? globals with
  | some cause =>
    rw [ho] at h hfirst
    rw [IsExact, hfirst]
    show eval globals (.unary op operand line) = .error cause
    rw [eval, h]
    rfl
  | none =>
    rw [ho] at h hfirst
    obtain ⟨n, hexact, heval⟩ := h
    refine isExact_of_checked (n := op.exactValue n.toInt) ?_ hfirst ?_
    · rw [exactValue?, hexact]
      rfl
    · rw [eval, heval, ← Value.unary_integer]
      rfl

/-- An operation on two operands with exact values gives its exact value, or it offends. -/
theorem isExact_of_operands {left right : Expr} {op : BinaryOperator} {line : Nat} {a b : Int64}
    (hop : op ≠ .slash) (ha : left.exactValue? globals = some a.toInt)
    (hb : right.exactValue? globals = some b.toInt)
    (hfirst : firstOffence? globals (.binary op left right line) =
      offence? globals (.binary op left right line))
    (heval : eval globals (.binary op left right line) =
      Value.at line (Value.binary op (.integer a) (.integer b))) :
    IsExact globals (.binary op left right line) := by
  have hexact : exactValue? globals (.binary op left right line) =
      op.exactValue? a.toInt b.toInt := by
    rw [exactValue?, ha, hb]
    rfl
  rw [Value.binary_integer hop] at heval
  cases hn : op.exactValue? a.toInt b.toInt with
  | none =>
    obtain ⟨rfl, hzero⟩ := (BinaryOperator.exactValue?_eq_none_iff hop).1 hn
    rw [hn] at heval
    rw [offence?, hb, hzero, if_pos rfl] at hfirst
    rw [IsExact, hfirst]
    exact heval
  | some n =>
    rw [hn] at heval hexact
    refine isExact_of_checked hexact (hfirst.trans ?_) heval
    cases op with
    | div =>
      have hdivisor : ¬ right.exactValue? globals = some 0 := by
        intro hzero
        rw [(BinaryOperator.exactValue?_eq_none_iff hop).2
          ⟨rfl, Option.some.inj (hb.symm.trans hzero)⟩] at hn
        cases hn
      exact if_neg hdivisor
    | _ => rfl

theorem IsExact.binary {left right : Expr} (hl : IsExact globals left)
    (hr : IsExact globals right) {op : BinaryOperator} (hop : op ≠ .slash) (line : Nat) :
    IsExact globals (.binary op left right line) := by
  have hfirst : firstOffence? globals (.binary op left right line) =
      ((left.firstOffence? globals).or (right.firstOffence? globals)).or
        (offence? globals (.binary op left right line)) := by
    rw [firstOffence?, nodes, List.findSome?_append, List.findSome?_append,
      List.findSome?_singleton]
    rfl
  rw [IsExact] at hl hr
  cases hleft : left.firstOffence? globals with
  | some cause =>
    rw [hleft] at hl hfirst
    rw [IsExact, hfirst]
    show eval globals (.binary op left right line) = .error cause
    rw [eval, hl]
    rfl
  | none =>
    rw [hleft] at hl hfirst
    obtain ⟨a, ha, hevala⟩ := hl
    cases hright : right.firstOffence? globals with
    | some cause =>
      rw [hright] at hr hfirst
      rw [IsExact, hfirst]
      show eval globals (.binary op left right line) = .error cause
      rw [eval, hevala, hr]
      rfl
    | none =>
      rw [hright] at hr hfirst
      obtain ⟨b, hb, hevalb⟩ := hr
      refine isExact_of_operands hop ha hb hfirst ?_
      rw [eval, hevala, hevalb]
      rfl

/-- Where no floating-point numbers come up, evaluations are exact. -/
theorem isExact_of_integral {e : Expr} (h : e.touchesReal globals = false) : IsExact globals e := by
  induction e with
  | literal value line =>
    rw [touchesReal_literal] at h
    exact isExact_literal h line
  | «variable» name => exact isExact_variable h
  | unary op operand line ih =>
    rw [touchesReal_unary] at h
    exact (ih h).unary op line
  | binary op left right line ihl ihr =>
    rw [touchesReal_binary] at h
    simp only [Bool.or_eq_false_iff, decide_eq_false_iff_not] at h
    exact (ihl h.1.1).binary (ihr h.1.2) h.2 line

end Expr

/-! ## Division in 64 bits -/

namespace Whole

variable {a b quotient : Int64}

/-- The remainder that goes with a quotient in range is not the one that the machine lacks. -/
theorem not_min_of_quotient (h : checked (a.toInt.tdiv b.toInt) = .ok quotient) :
    ¬ (a = Int64.minValue ∧ b = -1) := by
  rintro ⟨rfl, rfl⟩
  have hrange := inRange_toInt quotient
  rw [checked_eq_ok_iff.1 h] at hrange
  exact absurd hrange (by decide)

theorem inRange_pred_of_quotient (hb : b ≠ 0)
    (h : checked (a.toInt.tdiv b.toInt) = .ok quotient) (hmod : a % b ≠ 0) :
    InRange (quotient.toInt - 1) := by
  have hbne : b.toInt ≠ 0 := fun hzero => hb (Int64.toInt_inj.1 hzero)
  have hmodne : a.toInt.tmod b.toInt ≠ 0 := by
    rw [← Int64.toInt_mod]
    exact fun hzero => hmod (Int64.toInt_inj.1 hzero)
  rw [checked_eq_ok_iff.1 h]
  exact (inRange_of_remainder (inRange_toInt a) hmodne hbne).2

end Whole

/-- Evaluation where no floating-point numbers come up, against the whole numbers without bounds.

* If all variables have values, no divisor is zero and every exact value can be held, the result is
  the exact value.
* Otherwise the result is the error of the first node that offends, operands before their operator
  and the left one first.
* In a division by another number than zero whose quotient toward zero can be held, the remainder is
  not that of the least number by minus one, so it is exact, too; and where the quotient is lessened
  by one, the difference can be held. -/
theorem Expr.eval_eq_exact (globals : Globals) (e : Expr) (h : e.touchesReal globals = false) :
    (e.Regular globals →
      ∃ n : Int64, e.exactValue? globals = some n.toInt ∧ e.eval globals = .ok (.integer n)) ∧
    (¬ e.Regular globals →
      ∃ cause, e.nodes.findSome? (offence? globals) = some cause ∧ e.eval globals = .error cause) ∧
    ∀ a b quotient : Int64, b ≠ 0 → checked (a.toInt.tdiv b.toInt) = .ok quotient →
      ¬ (a = Int64.minValue ∧ b = -1) ∧ (a % b).toInt = a.toInt.tmod b.toInt ∧
      (a % b ≠ 0 → InRange (quotient.toInt - 1) ∧
        (quotient - 1).toInt = quotient.toInt - 1) := by
  have hexact := isExact_of_integral h
  refine ⟨fun hregular => ?_, fun hirregular => ?_, fun a b quotient hb hq => ?_⟩
  · rw [IsExact, regular_iff.1 hregular] at hexact
    exact hexact
  · cases hfirst : e.firstOffence? globals with
    | none => exact absurd (regular_iff.2 hfirst) hirregular
    | some cause =>
      rw [IsExact, hfirst] at hexact
      exact ⟨cause, hfirst, hexact⟩
  · refine ⟨not_min_of_quotient hq, Int64.toInt_mod a b, fun hmod => ?_⟩
    have hpred := inRange_pred_of_quotient hb hq hmod
    exact ⟨hpred, toInt_pred quotient hpred⟩

/-- The least whole number under `x`, and a negative one under `y`. -/
def negatives : Globals :=
  ((∅ : Globals).insert "x" (.integer Int64.minValue)).insert "y" (.integer (-7))

/-- The quotient of `y` by two, minus `y`. -/
def roundedQuotient : Expr :=
  .binary .sub (.binary .div (.variable ⟨"y", 1⟩) (.literal (.integer 2) 1) 1)
    (.variable ⟨"y", 2⟩) 2

/-- The quotient of `x` by minus one on line 3, plus a variable without a value on line 4. -/
def competingErrors : Expr :=
  .binary .add
    (.binary .div (.variable ⟨"x", 3⟩) (.unary .minus (.literal (.integer 1) 3) 3) 3)
    (.variable ⟨"z", 4⟩) 4

/-- A negative quotient is rounded down; of two errors the one further left wins; and the division
by two is exact in all its steps. -/
theorem eval_eq_exact_samples :
    roundedQuotient.Regular negatives ∧
    (∃ n : Int64, roundedQuotient.exactValue? negatives = some n.toInt ∧ n = 3 ∧
      roundedQuotient.eval negatives = .ok (.integer n)) ∧
    ¬ competingErrors.Regular negatives ∧
    competingErrors.eval negatives = .error (.arithmetic .overflow 3) ∧
    ((-7 : Int64) % 2).toInt = (-7 : Int64).toInt.tmod (2 : Int64).toInt ∧
    InRange ((-3 : Int64).toInt - 1) := by
  have hinteger : roundedQuotient.touchesReal negatives = false := by decide +kernel
  have hinteger' : competingErrors.touchesReal negatives = false := by decide +kernel
  have hregular : roundedQuotient.Regular negatives := Expr.regular_iff.2 (by decide +kernel)
  have hoffence : competingErrors.firstOffence? negatives = some (.arithmetic .overflow 3) := by
    decide +kernel
  have hirregular : ¬ competingErrors.Regular negatives := by
    rw [Expr.regular_iff, hoffence]
    exact nofun
  have hvalue : roundedQuotient.exactValue? negatives = some 3 := by decide +kernel
  obtain ⟨hok, -, hdivision⟩ := Expr.eval_eq_exact negatives roundedQuotient hinteger
  obtain ⟨-, herror, -⟩ := Expr.eval_eq_exact negatives competingErrors hinteger'
  obtain ⟨n, hexact, heval⟩ := hok hregular
  obtain ⟨cause, hcause, heval'⟩ := herror hirregular
  obtain ⟨-, hmod, hpred⟩ := hdivision (-7) 2 (-3) (by decide) (by decide)
  have hn : n = 3 := Int64.toInt_inj.1 (Option.some.inj (hexact.symm.trans hvalue))
  obtain rfl : cause = .arithmetic .overflow 3 := Option.some.inj (hcause.symm.trans hoffence)
  exact ⟨hregular, ⟨n, hexact, hn, heval⟩, hirregular, heval', hmod, (hpred (by decide)).1⟩

end PocketPascal
