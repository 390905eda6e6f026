/-!
# Reading decimals

The number that a text in decimal digits stands for. A floating-point text is an optional sign and
then either digits with an optional point among them and an optional exponent, or one of the words
for infinity and for what is no number, in any case. It is rounded to the nearest floating-point
number, to the even one of two, and to infinity if it is too large.
-/

namespace PocketPascal.Decimal

/-- The value of a digit. -/
def digitValue (c : Char) : Nat := c.toNat - '0'.toNat

/-- The whole number with the given digits, the highest first. -/
def natOfDigits (digits : List Char) : Nat := digits.foldl (fun n c => 10 * n + digitValue c) 0

/-- The sign in front of a text, as "is it negative?", and the text after it. -/
def splitSign : List Char → Bool × List Char
  | '-' :: rest => (true, rest)
  | '+' :: rest => (false, rest)
  | rest => (false, rest)

/-- The exponent after the digits of a number: zero if nothing stands there. -/
def exponent? : List Char → Option Int
  | [] => some 0
  | mark :: rest =>
      let (negative, digits) := splitSign rest
      if (mark = 'e' || mark = 'E') && !digits.isEmpty && digits.all Char.isDigit then
        some (if negative then -(natOfDigits digits : Int) else natOfDigits digits)
      else none

/-- The digits before and after the point at the front of a text, and the text after them. At least
one digit is needed. -/
def mantissa? (cs : List Char) : Option (List Char × List Char × List Char) :=
  let whole := cs.takeWhile Char.isDigit
  let (fraction, rest) :=
    match cs.dropWhile Char.isDigit with
    | '.' :: more => (more.takeWhile Char.isDigit, more.dropWhile Char.isDigit)
    | more => ([], more)
  if whole.isEmpty && fraction.isEmpty then none else some (whole, fraction, rest)

/-- The floating-point number nearest to `digits * 10 ^ exponent`. -/
def nearest (digits : Nat) (exponent : Int) : Float :=
  Float.ofScientific digits (exponent < 0) exponent.natAbs

/-- The number that an unsigned text stands for. -/
def magnitude? (cs : List Char) : Option Float :=
  match String.ofList (cs.map Char.toLower) with
  | "nan" => some (0.0 / 0.0)
  | "inf" => some (1.0 / 0.0)
  | "infinity" => some (1.0 / 0.0)
  | _ => do
      let (whole, fraction, rest) ← mantissa? cs
      let exponent ← exponent? rest
      return nearest (natOfDigits (whole ++ fraction)) (exponent - fraction.length)

/-- The floating-point number that a text stands for. -/
def float? (text : String) : Option Float :=
  let (negative, cs) := splitSign text.toList
  (magnitude? cs).map fun x => if negative then -x else x

end PocketPascal.Decimal
