import PocketPascal.Text.Printable

/-!
# Quoted characters

A single character is shown between single quotes. The quote itself, the backslash and the four
control characters with a letter of their own are escaped by a backslash; a character that combines
or is not printable is shown by its code point in braces; every other character stands for itself.
-/

namespace PocketPascal.Text

/-- The code point of a character in lower-case hexadecimal digits, without leading zeros. -/
def hexDigits (c : Char) : String := String.ofList (Nat.toDigits 16 c.toNat)

/-- The form in which a character stands between single quotes. -/
def escaped (c : Char) : String :=
  if c = '\x00' then "\\0"
  else if c = '\t' then "\\t"
  else if c = '\r' then "\\r"
  else if c = '\n' then "\\n"
  else if c = '\'' then "\\'"
  else if c = '\\' then "\\\\"
  else if isCombining c || !isPrintable c then "\\u\x7b" ++ hexDigits c ++ "\x7d"
  else c.toString

/-- A character between single quotes. -/
def quoted (c : Char) : String := "'" ++ escaped c ++ "'"

end PocketPascal.Text
