/-!
# The shortest decimal of a floating-point number

A positive floating-point number is `significand * 2 ^ exponent`. Around it lies the interval of the
reals that round to it: half the distance to either neighbour, both ends included exactly when the
significand is even. Every decimal in that interval reads back as the number.

`shortest` gives the decimal with the fewest digits in the interval, and of those the nearest one.
The decimals with a given last place form a grid; the search goes from coarse grids to fine ones,
and on each grid only the two points next to the number need to be tried. Of two points that are
equally near the larger one is taken. All arithmetic is exact.
-/

namespace PocketPascal.Decimal

/-- A positive decimal, `digits * 10 ^ exponent`. -/
structure Scaled where
  /-- The digits, as a whole number. -/
  digits : Nat
  /-- The place of the last digit. -/
  exponent : Int
  deriving DecidableEq, Repr

/-- A positive binary floating-point number, `significand * 2 ^ exponent`. -/
structure Binary where
  /-- The significand. -/
  significand : Nat
  /-- The place of its last binary digit. -/
  exponent : Int
  /-- Whether the next smaller number is only half as far away as the next larger one, because the
  number is a power of two. -/
  closeBelow : Bool
  deriving DecidableEq, Repr

namespace Binary

/-- The number in quarters of the place of its last binary digit. -/
def value (b : Binary) : Nat := 4 * b.significand

/-- The lower end of the interval that rounds to the number, in the same quarters. -/
def low (b : Binary) : Nat := b.value - if b.closeBelow then 1 else 2

/-- The upper end of the interval that rounds to the number, in the same quarters. -/
def high (b : Binary) : Nat := b.value + 2

/-- Whether the two ends themselves round to the number. -/
def closed (b : Binary) : Bool := b.significand % 2 = 0

/-- The factor that takes quarters to the common unit in which they are compared with multiples of
`10 ^ place`. -/
def quarter (b : Binary) (place : Int) : Nat :=
  Nat.pow 2 (b.exponent - 2).toNat * Nat.pow 10 (-place).toNat

/-- The value of `10 ^ place` in the common unit. -/
def step (b : Binary) (place : Int) : Nat :=
  Nat.pow 10 place.toNat * Nat.pow 2 (2 - b.exponent).toNat

/-- Whether `digits * 10 ^ place` lies in the interval that rounds to the number. -/
def holds (b : Binary) (place : Int) (digits : Nat) : Bool :=
  let point := digits * b.step place
  let low := b.low * b.quarter place
  let high := b.high * b.quarter place
  if b.closed then low ≤ point && point ≤ high else low < point && point < high

/-- The point of the grid with the given last place that stands for the number: of its two
neighbours on the grid the nearer one in the interval, if there is one. -/
def onGrid? (b : Binary) (place : Int) : Option Scaled :=
  let value := b.value * b.quarter place
  let below := value / b.step place
  let above := below + 1
  match b.holds place below, b.holds place above with
  | false, false => none
  | true, false => some ⟨below, place⟩
  | false, true => some ⟨above, place⟩
  | true, true =>
      if value - below * b.step place < above * b.step place - value then some ⟨below, place⟩
      else some ⟨above, place⟩

/-- The first hit on the grids from `place` downwards, at most `count` of them. -/
def search (b : Binary) (place : Int) : Nat → Option Scaled
  | 0 => none
  | count + 1 => (b.onGrid? place).or (b.search (place - 1) count)

/-- A place that is coarser than the interval: `10` to this place is above its upper end. The
factor is a little more than the decimal logarithm of two. -/
def coarsest (b : Binary) : Int := ((b.high.log2 : Int) + 1 + (b.exponent - 2)) * 30103 / 100000 + 2

/-- How many grids are tried. Seventeen digits tell any two numbers apart, and the coarsest grid has
at most three places more. -/
def searchDepth : Nat := 21

/-- The decimal with the fewest digits that reads back as the number, and of those the nearest. -/
def shortest (b : Binary) : Scaled := (b.search b.coarsest searchDepth).getD ⟨0, 0⟩

end Binary

/-! ## The bits of a floating-point number -/

/-- Whether the sign bit is set. -/
def isNegative (x : Float) : Bool := x.toBits >>> 63 = 1

/-- The absolute value of a finite number other than zero, taken apart; nothing for zero. -/
def binary? (x : Float) : Option Binary :=
  let fraction := (x.toBits &&& 0xFFFFFFFFFFFFF).toNat
  let scale := (x.toBits >>> 52 &&& 0x7FF).toNat
  if scale = 0 then
    if fraction = 0 then none else some ⟨fraction, -1074, false⟩
  else some ⟨0x10000000000000 + fraction, (scale : Int) - 1075, fraction = 0 && 1 < scale⟩

end PocketPascal.Decimal
