import PocketPascal.Token

/-!
# Operators

The arithmetic operators, each with the kind of the token that writes it. Products bind tighter than
sums; the two prefix signs bind tighter than both.
-/

namespace PocketPascal

/-- An operator between two operands. -/
inductive BinaryOperator where
  /-- Addition. -/
  | add
  /-- Subtraction. -/
  | sub
  /-- Multiplication. -/
  | mul
  /-- Division that rounds the quotient down. -/
  | div
  /-- Division in floating-point numbers. -/
  | slash
  deriving DecidableEq, Repr

/-- A sign in front of an operand. -/
inductive UnaryOperator where
  /-- The identity. -/
  | plus
  /-- Negation. -/
  | minus
  deriving DecidableEq, Repr

namespace BinaryOperator

/-- The kind of the token that writes the operator. -/
def kind : BinaryOperator → Kind
  | .add => .mark .plus
  | .sub => .mark .minus
  | .mul => .mark .times
  | .div => .keyword .div
  | .slash => .mark .slash

/-- The operator as it is written. -/
def symbol : BinaryOperator → String
  | .add => Mark.plus.text
  | .sub => Mark.minus.text
  | .mul => Mark.times.text
  | .div => Keyword.div.text
  | .slash => Mark.slash.text

/-- The operator of a sum that a token of the given kind writes. -/
def ofSumKind? : Kind → Option BinaryOperator
  | .mark .plus => some .add
  | .mark .minus => some .sub
  | _ => none

/-- The operator of a product that a token of the given kind writes. -/
def ofProductKind? : Kind → Option BinaryOperator
  | .mark .times => some .mul
  | .keyword .div => some .div
  | .mark .slash => some .slash
  | _ => none

/-- No operator is written as the end of the input. -/
theorem kind_ne_finish (op : BinaryOperator) : op.kind ≠ .finish := by
  cases op <;> decide

/-- The operator of a sum has the kind that it was found under. -/
theorem kind_of_ofSumKind? {k : Kind} {op : BinaryOperator} (h : ofSumKind? k = some op) :
    op.kind = k := by
  unfold ofSumKind? at h
  split at h <;> cases h <;> rfl

/-- The operator of a product has the kind that it was found under. -/
theorem kind_of_ofProductKind? {k : Kind} {op : BinaryOperator} (h : ofProductKind? k = some op) :
    op.kind = k := by
  unfold ofProductKind? at h
  split at h <;> cases h <;> rfl

end BinaryOperator

namespace UnaryOperator

/-- The kind of the token that writes the sign. -/
def kind : UnaryOperator → Kind
  | .plus => .mark .plus
  | .minus => .mark .minus

/-- The sign as it is written. -/
def symbol : UnaryOperator → String
  | .plus => Mark.plus.text
  | .minus => Mark.minus.text

/-- The sign that a token of the given kind writes. -/
def ofKind? : Kind → Option UnaryOperator
  | .mark .plus => some .plus
  | .mark .minus => some .minus
  | _ => none

/-- No sign is written as the end of the input. -/
theorem kind_ne_finish (op : UnaryOperator) : op.kind ≠ .finish := by
  cases op <;> decide

/-- A sign has the kind that it was found under. -/
theorem kind_of_ofKind? {k : Kind} {op : UnaryOperator} (h : ofKind? k = some op) :
    op.kind = k := by
  unfold ofKind? at h
  split at h <;> cases h <;> rfl

end UnaryOperator

end PocketPascal
