import PocketPascal.Decimal.Shortest

/-!
# Decimal notation

How a floating-point number is written. The digits are the shortest that read back; the `Notation`
says where positional notation ends and how the other forms look. Every text of a number contains a
point, an exponent, or one of the words for the numbers that are not finite, so that it differs from
every text of a whole number.
-/

namespace PocketPascal.Decimal

/-- The decisions of a decimal notation. -/
structure Notation where
  /-- The smallest place of a leading digit that is written positionally. -/
  lowest : Int
  /-- The first place of a leading digit that is too large for positional notation. -/
  highest : Int
  /-- The mark between digits and exponent. -/
  exponentMark : String
  /-- What is written after a whole number in positional notation. -/
  wholeEnding : String
  /-- The text of what is no number. -/
  notANumber : String
  /-- The text of infinity. -/
  infinity : String
  deriving Repr

/-- The notation of results: positional from `0.0001` up to, but not including, `10 ^ 16`, with a
digit on both sides of the point; otherwise one leading digit, the others after a point, and the
exponent. -/
def Notation.result : Notation := ⟨-4, 16, "e", ".0", "NaN", "inf"⟩

/-- The digits of a whole number, the highest first. -/
def digitList (n : Nat) : List Char := Nat.toDigits 10 n

/-- The decimal without zeros at its end, as its digits and the place of the first of them. -/
def leading (s : Scaled) : List Char × Int :=
  let all := digitList s.digits
  ((all.reverse.dropWhile (· == '0')).reverse, s.exponent + all.length - 1)

namespace Notation

/-- Positional notation of `digits` with the first digit at `place`. -/
def positional (n : Notation) (digits : List Char) (place : Int) : String :=
  if place < 0 then
    "0." ++ String.ofList (List.replicate (-place - 1).toNat '0') ++ String.ofList digits
  else
    let whole := place.toNat + 1
    if digits.length ≤ whole then
      String.ofList digits ++ String.ofList (List.replicate (whole - digits.length) '0') ++
        n.wholeEnding
    else String.ofList (digits.take whole) ++ "." ++ String.ofList (digits.drop whole)

/-- Scientific notation of `digits` with the first digit at `place`. -/
def scientific (n : Notation) (digits : List Char) (place : Int) : String :=
  let fraction :=
    match digits.drop 1 with
    | [] => ""
    | more => "." ++ String.ofList more
  String.ofList (digits.take 1) ++ fraction ++ n.exponentMark ++ toString place

/-- The text of a positive number. -/
def magnitude (n : Notation) (b : Binary) : String :=
  let (digits, place) := leading b.shortest
  if n.lowest ≤ place && place < n.highest then n.positional digits place
  else n.scientific digits place

/-- The text of a floating-point number. A zero keeps its sign. -/
def write (n : Notation) (x : Float) : String :=
  if x.isNaN then n.notANumber
  else
    (if isNegative x then "-" else "") ++
      if x.isInf then n.infinity
      else
        match binary? x with
        | none => "0" ++ n.wholeEnding
        | some b => n.magnitude b

end Notation

end PocketPascal.Decimal
