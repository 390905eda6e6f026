import PocketPascal.Decimal.Notation
import PocketPascal.Operator

/-!
# Values

The language has numbers only: whole numbers of 64 bits, whose arithmetic is exact or fails, and
floating-point numbers. Two whole numbers give a whole number under every operator but the slash;
everything else is computed in floating-point numbers. Two values are equal when they are the same
kind of number with the same bits, so what is no number equals itself.
-/

namespace PocketPascal

/-- A number. -/
inductive Value where
  /-- A whole number. -/
  | integer (n : Int64)
  /-- A floating-point number. -/
  | real (x : Float)
  deriving DecidableEq

/-- Why an operation has no value. -/
inductive Fault where
  /-- The divisor is zero. -/
  | divisionByZero
  /-- The exact value is out of the range of whole numbers. -/
  | overflow
  deriving DecidableEq, Repr

/-! ## Whole numbers -/

namespace Whole

/-- Whether a whole number can be held: from `-2 ^ 63` up to, but not including, `2 ^ 63`. -/
def InRange (n : Int) : Prop := -9223372036854775808 ≤ n ∧ n < 9223372036854775808

instance (n : Int) : Decidable (InRange n) := inferInstanceAs (Decidable (_ ∧ _))

/-- The whole number `n`, or an overflow if it cannot be held. -/
def checked (n : Int) : Except Fault Int64 :=
  if InRange n then .ok (Int64.ofInt n) else .error .overflow

/-- The quotient rounded down: the quotient rounded toward zero, less one if there is a remainder and
the signs of the operands differ. -/
def floorDiv (a b : Int64) : Except Fault Int64 :=
  if b = 0 then .error .divisionByZero
  else do
    let quotient ← checked (a.toInt.tdiv b.toInt)
    return if a % b ≠ 0 ∧ ¬ (a < 0 ↔ b < 0) then quotient - 1 else quotient

/-- A whole number that can be held is held exactly. -/
theorem toInt_ofInt {n : Int} (h : InRange n) : (Int64.ofInt n).toInt = n :=
  Int64.toInt_ofInt_of_le h.1 h.2

/-- Every held number is in range. -/
theorem inRange_toInt (a : Int64) : InRange a.toInt := ⟨a.le_toInt, a.toInt_lt⟩

/-- The check succeeds exactly on the numbers in range, and gives the number itself. -/
theorem checked_eq_ok_iff {n : Int} {a : Int64} : checked n = .ok a ↔ a.toInt = n := by
  unfold checked
  split
  · rename_i h
    constructor
    · intro e
      cases e
      exact toInt_ofInt h
    · rintro rfl
      simp
  · rename_i h
    constructor
    · intro e
      cases e
    · rintro rfl
      exact absurd (inRange_toInt a) h

/-- The check fails exactly on the numbers out of range. -/
theorem checked_eq_error_iff {n : Int} {f : Fault} :
    checked n = .error f ↔ f = .overflow ∧ ¬ InRange n := by
  unfold checked
  split <;> simp_all [eq_comm]

/-! ## Division -/

theorem fdiv_eq_tdiv_or_pred (a : Int) {b : Int} (h : b ≠ 0) :
    a.fdiv b = if a.tmod b ≠ 0 ∧ ¬ (a < 0 ↔ b < 0) then a.tdiv b - 1 else a.tdiv b := by
  rw [Int.fdiv_eq_tdiv]
  by_cases hdvd : b ∣ a
  · have hzero : a.tmod b = 0 := Int.tmod_eq_zero_of_dvd hdvd
    simp only [hdvd, hzero, if_true, Int.sub_zero, ne_eq, not_true_eq_false, false_and, if_false]
  · have hne : a.tmod b ≠ 0 := fun hzero => hdvd (Int.dvd_of_tmod_eq_zero hzero)
    simp only [hdvd, hne, if_false, ne_eq, not_false_eq_true, true_and, ← Int.not_lt]
    rcases Int.lt_or_gt_of_ne h with hb | hb
    · have hsign : b.sign = -1 := Int.sign_eq_neg_one_of_neg hb
      by_cases ha : a < 0 <;> simp [ha, hb, hsign]
    · have hsign : b.sign = 1 := Int.sign_eq_one_of_pos hb
      have hnot : ¬ b < 0 := by omega
      by_cases ha : a < 0 <;> simp [ha, hnot, hsign]

/-- Where a division leaves a remainder, the divisor is neither one nor minus one, so the quotient
stays well inside of the range. -/
theorem inRange_of_remainder {a b : Int} (ha : InRange a) (h : a.tmod b ≠ 0) (hb : b ≠ 0) :
    InRange (a.tdiv b) ∧ InRange (a.tdiv b - 1) := by
  have hone : b ≠ 1 := fun hone => h (by rw [hone, Int.tmod_one])
  have hminus : b ≠ -1 := fun hminus => h (by rw [hminus, Int.tmod_neg, Int.tmod_one])
  have htwo : 2 ≤ b.natAbs := by omega
  have hhalf : (a.tdiv b).natAbs ≤ a.natAbs / 2 := by
    rw [Int.natAbs_tdiv]
    exact Nat.div_le_div_left htwo (by decide)
  unfold InRange at ha ⊢
  omega

theorem toInt_pred (quotient : Int64) (h : InRange (quotient.toInt - 1)) :
    (quotient - 1).toInt = quotient.toInt - 1 := by
  rw [Int64.toInt_sub, Int64.toInt_one]
  exact Int.bmod_eq_of_le (by unfold InRange at h; omega) (by unfold InRange at h; omega)

/-- The quotient is that of the whole numbers without bounds, rounded down, if it can be held. -/
theorem floorDiv_eq (a b : Int64) :
    floorDiv a b = if b = 0 then .error .divisionByZero else checked (a.toInt.fdiv b.toInt) := by
  unfold floorDiv
  by_cases hzero : b = 0
  · rw [if_pos hzero, if_pos hzero]
  · have hb : b.toInt ≠ 0 := fun h => hzero (Int64.toInt_inj.1 h)
    have hmod : a % b ≠ 0 ↔ a.toInt.tmod b.toInt ≠ 0 := by
      rw [← Int64.toInt_mod, ne_eq, ← Int64.toInt_inj, Int64.toInt_zero]
    have hsigns : (a < 0 ↔ b < 0) ↔ (a.toInt < 0 ↔ b.toInt < 0) := by
      rw [Int64.lt_iff_toInt_lt, Int64.lt_iff_toInt_lt, Int64.toInt_zero]
    rw [if_neg hzero, if_neg hzero, fdiv_eq_tdiv_or_pred a.toInt hb]
    simp only [hmod, hsigns]
    by_cases hround : a.toInt.tmod b.toInt ≠ 0 ∧ ¬ (a.toInt < 0 ↔ b.toInt < 0)
    · obtain ⟨hquotient, hpred⟩ := inRange_of_remainder (inRange_toInt a) hround.1 hb
      have hdown := toInt_pred (Int64.ofInt (a.toInt.tdiv b.toInt))
      rw [toInt_ofInt hquotient] at hdown
      rw [if_pos hround, checked, if_pos hquotient, checked_eq_ok_iff.2 (hdown hpred)]
      simp only [if_pos hround]
      rfl
    · simp only [if_neg hround]
      cases checked (a.toInt.tdiv b.toInt) <;> rfl

end Whole

namespace Value

/-- The value as a floating-point number. A whole number goes to the nearest one, and to the even
one of two that are equally near. -/
def toReal : Value → Float
  | .integer n => Float.ofInt n.toInt
  | .real x => x

/-- Whether the value is a floating-point number. -/
def isReal : Value → Bool
  | .integer _ => false
  | .real _ => true

/-- The text of the value. -/
def text : Value → String
  | .integer n => toString n.toInt
  | .real x => Decimal.Notation.result.write x

/-- An operation on floating-point numbers. Dividing by a zero of either sign is a fault; nothing
else is. -/
def realBinary (op : BinaryOperator) (x y : Float) : Except Fault Float :=
  match op with
  | .add => .ok (x + y)
  | .sub => .ok (x - y)
  | .mul => .ok (x * y)
  | .div => if y == 0.0 then .error .divisionByZero else .ok (x / y).floor
  | .slash => if y == 0.0 then .error .divisionByZero else .ok (x / y)

/-- An operation on two values. -/
def binary (op : BinaryOperator) (left right : Value) : Except Fault Value :=
  match op, left, right with
  | .add, .integer a, .integer b => (Whole.checked (a.toInt + b.toInt)).map .integer
  | .sub, .integer a, .integer b => (Whole.checked (a.toInt - b.toInt)).map .integer
  | .mul, .integer a, .integer b => (Whole.checked (a.toInt * b.toInt)).map .integer
  | .div, .integer a, .integer b => (Whole.floorDiv a b).map .integer
  | _, _, _ => (realBinary op left.toReal right.toReal).map .real

/-- A sign in front of a value. -/
def unary (op : UnaryOperator) (operand : Value) : Except Fault Value :=
  match op, operand with
  | .plus, _ => .ok operand
  | .minus, .integer n => (Whole.checked (-n.toInt)).map .integer
  | .minus, .real x => .ok (.real (-x))

end Value

end PocketPascal
