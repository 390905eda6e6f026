import PocketPascal.Error
import PocketPascal.Text.Blank
import PocketPascal.Token.Lexeme

/-!
# The scanner

A scanner stands at a position of a text that has been trimmed of blanks. `next` passes over spacing
and hands out the token at the position, or an error if the character there starts no token. After
an error scanning may go on. Where it goes on is no matter of the patterns, and two rules are assumed:

* a character that starts nothing is passed over on its own;
* a brace that is never closed takes the rest of the text with it, since the search for the closing
  brace has come to the end of the text.

At the end of the text `next` hands out the end-of-input token, as often as it is asked. The main
statements are that `next` loses no text, and that it moves on with every token and every error.
-/

namespace PocketPascal

/-- A position in a trimmed source text. -/
structure Scanner where
  /-- The text before the position, the nearest character first. -/
  passed : List Char
  /-- The text after the position. -/
  rest : List Char
  /-- The line of the position, counted from one. -/
  line : Nat
  deriving DecidableEq, Repr

namespace Scanner

/-- The scanner at the beginning of a text, from which blanks at either end are dropped first. -/
def ofSource (source : String) : Scanner := ⟨[], Text.trim source.toList, 1⟩

/-- The text that a scanner runs over, before and after its position. -/
def text (s : Scanner) : List Char := s.passed.reverse ++ s.rest

/-- The offset of the position in bytes of the encoded text. -/
def offset (s : Scanner) : Nat := (String.ofList s.passed.reverse).utf8ByteSize

/-! ## The text around an offset -/

/-- How many characters a snippet shows on either side of a position. -/
def snippetRadius : Nat := 10

/-- Splits a text at an offset in bytes of its encoding; the character that holds the offset goes to
the second part. -/
def splitAtByte : List Char → Nat → List Char × List Char
  | [], _ => ([], [])
  | c :: cs, offset =>
      if offset < c.utf8Size then ([], c :: cs)
      else
        let (before, after) := splitAtByte cs (offset - c.utf8Size)
        (c :: before, after)

/-- The text around an offset in bytes of a source text, which is not trimmed: at most ten characters
on either side. -/
def snippetAt (source : String) (offset : Nat) : String :=
  let (before, after) := splitAtByte source.toList offset
  String.ofList ((before.reverse.take snippetRadius).reverse ++ after.take snippetRadius)

/-! ## One step -/

/-- The scanner after a lexeme, where `rest` is what follows it. -/
def past (s : Scanner) (l : Lexeme) (rest : List Char) : Scanner :=
  ⟨l.text.reverse ++ s.passed, rest, s.line + l.breaks⟩

/-- The error at the position: the character that begins at its offset, with the text around it. -/
def invalidCharacter (s : Scanner) : LexicalError :=
  ⟨(splitAtByte s.text s.offset).2.headD '\x00', snippetAt (String.ofList s.text) s.offset, s.line⟩

/-- The scanner after an error at the character `c`, with `cs` after it. Only an opening brace can
have nothing to close it; then the text after it is passed over, too. No lines are counted. -/
def pastInvalid (s : Scanner) (c : Char) (cs : List Char) : Scanner :=
  if c = '{' then ⟨(c :: cs).reverse ++ s.passed, [], s.line⟩ else ⟨c :: s.passed, cs, s.line⟩

/-- Passes over spacing and hands out the next token, or an error in front of a character that
starts none, with the position after it. -/
def next (s : Scanner) : Except LexicalError Token × Scanner :=
  match _h : Lexeme.read? s.rest with
  | some (l, rest) =>
      if l.kind.isSpacing then (s.past l rest).next
      else (.ok ⟨l.kind, some (String.ofList l.text), s.line⟩, s.past l rest)
  | none =>
      match s.rest with
      | [] => (.ok (.finish s.line), s)
      | c :: cs => (.error s.invalidCharacter, s.pastInvalid c cs)
termination_by s.rest.length
decreasing_by exact Lexeme.length_lt_of_read? _h

/-! ## The character and the text of an error -/

theorem utf8ByteSize_cons (c : Char) (cs : List Char) :
    (String.ofList (c :: cs)).utf8ByteSize = c.utf8Size + (String.ofList cs).utf8ByteSize := by
  have hsplit : String.ofList (c :: cs) = String.singleton c ++ String.ofList cs := by
    rw [← List.singleton_append, String.ofList_append, String.singleton_eq_ofList]
  rw [hsplit, String.utf8ByteSize_append, String.utf8ByteSize_singleton]

/-- At the size of its first part a text is split into its parts. -/
theorem splitAtByte_append (before after : List Char) :
    splitAtByte (before ++ after) (String.ofList before).utf8ByteSize = (before, after) := by
  induction before with
  | nil =>
    cases after with
    | nil => rfl
    | cons c cs =>
      have hpos : (String.ofList []).utf8ByteSize < c.utf8Size := c.utf8Size_pos
      rw [List.nil_append, splitAtByte, if_pos hpos]
  | cons c cs ih =>
    have hle : ¬ c.utf8Size + (String.ofList cs).utf8ByteSize < c.utf8Size := by omega
    rw [List.cons_append, utf8ByteSize_cons, splitAtByte, if_neg hle, Nat.add_sub_cancel_left, ih]

/-- The offset of a scanner stands for its position. -/
theorem splitAtByte_text (s : Scanner) : splitAtByte s.text s.offset = (s.passed.reverse, s.rest) :=
  splitAtByte_append _ _

/-- An error is about the character at the position. -/
theorem character_invalidCharacter {s : Scanner} {c : Char} {cs : List Char} (h : s.rest = c :: cs) :
    s.invalidCharacter.character = c := by
  rw [invalidCharacter, splitAtByte_text, h]
  rfl

/-! ## Losing nothing -/

/-- A scanner that moves past a lexeme still runs over the same text. -/
theorem text_past {s : Scanner} {l : Lexeme} {rest : List Char}
    (h : Lexeme.read? s.rest = some (l, rest)) : (s.past l rest).text = s.text := by
  have hpiece := Lexeme.text_append_of_read? h
  simp [past, text, ← hpiece]

theorem text_pastInvalid {s : Scanner} {c : Char} {cs : List Char} (h : s.rest = c :: cs) :
    (s.pastInvalid c cs).text = s.text := by
  unfold pastInvalid
  split <;> simp [text, h]

/-- The next token, or error, leaves the text as it is. -/
theorem text_next (s : Scanner) : s.next.2.text = s.text := by
  fun_induction next s with
  | case1 s l rest h _ ih => rw [ih, text_past h]
  | case2 s l rest h _ => exact text_past h
  | case3 s h hr => rfl
  | case4 s h c cs hr => exact text_pastInvalid hr

/-! ## Moving on -/

theorem length_rest_pastInvalid (s : Scanner) (c : Char) (cs : List Char) :
    (s.pastInvalid c cs).rest.length ≤ cs.length := by
  unfold pastInvalid
  split <;> simp

/-- The next token moves the scanner on, unless it is the end of the input; an error moves it on,
too. -/
theorem next_eq_finish_or_length_lt (s : Scanner) :
    (∃ line, s.next.1 = .ok (.finish line)) ∨ s.next.2.rest.length < s.rest.length := by
  fun_induction next s with
  | case1 s l rest h _ ih =>
    have := Lexeme.length_lt_of_read? h
    exact ih.imp_right fun lt => Nat.lt_trans lt this
  | case2 s l rest h _ => exact .inr (Lexeme.length_lt_of_read? h)
  | case3 s h hr => exact .inl ⟨s.line, rfl⟩
  | case4 s h c cs hr =>
    have := length_rest_pastInvalid s c cs
    rw [hr]
    exact .inr (Nat.lt_succ_of_le this)

/-- A token of another kind than the end of the input moves the scanner on. -/
theorem length_lt_of_next_ok {s after : Scanner} {t : Token} (h : s.next = (.ok t, after))
    (hk : t.kind ≠ .finish) : after.rest.length < s.rest.length := by
  have key := next_eq_finish_or_length_lt s
  rw [h] at key
  rcases key with ⟨line, hl⟩ | lt
  · cases hl
    exact absurd rfl hk
  · exact lt

/-- An error moves the scanner on. -/
theorem length_lt_of_next_error {s after : Scanner} {e : LexicalError}
    (h : s.next = (.error e, after)) : after.rest.length < s.rest.length := by
  have key := next_eq_finish_or_length_lt s
  rw [h] at key
  rcases key with ⟨line, hl⟩ | lt
  · cases hl
  · exact lt

/-! ## All tokens -/

/-- All tokens from the position on, the end of the input last, or the first error; with the
position that is reached. -/
def tokenize (s : Scanner) : Except LexicalError (List Token) × Scanner :=
  match _h : s.next with
  | (.ok t, after) =>
      if _hk : t.kind = .finish then (.ok [t], after)
      else
        match after.tokenize with
        | (.ok ts, final) => (.ok (t :: ts), final)
        | (.error e, final) => (.error e, final)
  | (.error e, after) => (.error e, after)
termination_by s.rest.length
decreasing_by exact length_lt_of_next_ok _h _hk

end Scanner

end PocketPascal
