/-!
# Blanks around a text

A source text is read without the blanks at its two ends. A *blank* is a character with the
property `White_Space`; this is a larger class than the characters that may separate two tokens
inside the text, and it is used for trimming only.
-/

namespace PocketPascal.Text

/-- The ranges of the property `White_Space`, as first and last code point. -/
def blankRanges : List (Nat × Nat) :=
  [(0x0009, 0x000D), (0x0020, 0x0020), (0x0085, 0x0085), (0x00A0, 0x00A0), (0x1680, 0x1680),
   (0x2000, 0x200A), (0x2028, 0x2029), (0x202F, 0x202F), (0x205F, 0x205F), (0x3000, 0x3000)]

/-- Whether a code point lies in one of the ranges, both ends included. -/
def inRanges (ranges : List (Nat × Nat)) (c : Char) : Bool :=
  ranges.any fun range => range.1 ≤ c.toNat && c.toNat ≤ range.2

/-- Whether a character is a blank. -/
def isBlank (c : Char) : Bool := inRanges blankRanges c

/-- The text without the blanks at its front. -/
def trimFront (cs : List Char) : List Char := cs.dropWhile isBlank

/-- The text without the blanks at either end; blanks inside it stay. -/
def trim (cs : List Char) : List Char := (trimFront (trimFront cs).reverse).reverse

end PocketPascal.Text
