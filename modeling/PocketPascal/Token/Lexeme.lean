import PocketPascal.Token

/-!
# Lexemes

The next lexeme of a text is the longest piece at its front that forms a token or a piece of
spacing:

* a word is a letter followed by letters and digits; it is reserved exactly when it is spelled like
  a reserved word, and a name otherwise;
* a number is a run of digits; a point belongs to it only together with at least one digit after
  the point;
* a colon directly followed by an equals sign is one mark;
* a comment runs from an opening brace to the first closing brace.

Letters and digits are those of ASCII. A brace that is never closed starts no lexeme.

The patterns alone do not say which piece is read. Three rules are assumed for it, as generators of
scanners have them: of the pieces at the front that fit a pattern, the longest is read; a piece that
fits two patterns is a reserved word rather than a name; and where no piece fits, nothing is read and
the scanner reports an error. What the error takes with it is said in the module on scanners.
-/

namespace PocketPascal

/-- A piece of source text with its kind. -/
structure Lexeme where
  /-- What the text is. -/
  kind : Kind
  /-- The text. -/
  text : List Char
  deriving DecidableEq, Repr

namespace Lexeme

/-- How many line breaks are counted for a lexeme: one for a line break, and as many as there are
line feeds for a comment. No other lexeme has any. -/
def breaks (l : Lexeme) : Nat :=
  match l.kind with
  | .spacing .newline => 1
  | .spacing .comment => l.text.count '\n'
  | _ => 0

/-- Whether a character may stand in a gap between tokens: space, tab, carriage return and form
feed. -/
def isGap (c : Char) : Bool := c = ' ' || c = '\t' || c = '\r' || c = '\x0c'

/-- The kind of a word. -/
def wordKind (text : List Char) : Kind :=
  match Keyword.ofText? (String.ofList text) with
  | some word => .keyword word
  | none => .name

/-- The mark that a single character forms. -/
def mark? (c : Char) : Option Mark :=
  match c with
  | ':' => some .colon
  | ';' => some .semicolon
  | ',' => some .comma
  | '.' => some .dot
  | '+' => some .plus
  | '-' => some .minus
  | '*' => some .times
  | '/' => some .slash
  | '(' => some .leftParen
  | ')' => some .rightParen
  | _ => none

/-- Reads the word that begins with `c`; `cs` is the text after `c`. -/
def readWord (c : Char) (cs : List Char) : Lexeme × List Char :=
  let text := c :: cs.takeWhile Char.isAlphanum
  (⟨wordKind text, text⟩, cs.dropWhile Char.isAlphanum)

/-- Reads the number that begins with `c`; `cs` is the text after `c`. A point is part of the number
only if a digit follows it. -/
def readNumber (c : Char) (cs : List Char) : Lexeme × List Char :=
  let digits := c :: cs.takeWhile Char.isDigit
  match cs.dropWhile Char.isDigit with
  | '.' :: d :: rest =>
      if d.isDigit then
        (⟨.real, digits ++ '.' :: d :: rest.takeWhile Char.isDigit⟩, rest.dropWhile Char.isDigit)
      else (⟨.integer, digits⟩, '.' :: d :: rest)
  | rest => (⟨.integer, digits⟩, rest)

/-- Reads the gap that begins with `c`; `cs` is the text after `c`. -/
def readGap (c : Char) (cs : List Char) : Lexeme × List Char :=
  (⟨.spacing .gap, c :: cs.takeWhile isGap⟩, cs.dropWhile isGap)

/-- Reads the comment that begins with `c`, an opening brace; `cs` is the text after `c`. There is
no comment if no brace closes it. -/
def readComment? (c : Char) (cs : List Char) : Option (Lexeme × List Char) :=
  match cs.dropWhile (· != '}') with
  | [] => none
  | close :: rest => some (⟨.spacing .comment, c :: cs.takeWhile (· != '}') ++ [close]⟩, rest)

/-- Reads the lexeme at the front of a text, and gives it with the text after it. There is none at
the end of the text and in front of a character that starts no lexeme. -/
def read? : List Char → Option (Lexeme × List Char)
  | [] => none
  | c :: cs =>
      if c.isAlpha then some (readWord c cs)
      else if c.isDigit then some (readNumber c cs)
      else if isGap c then some (readGap c cs)
      else if c = '\n' then some (⟨.spacing .newline, [c]⟩, cs)
      else if c = '{' then readComment? c cs
      else if c = ':' ∧ cs.head? = some '=' then some (⟨.mark .assign, [c, '=']⟩, cs.tail)
      else (mark? c).map fun sign => (⟨.mark sign, [c]⟩, cs)

/-! ## A lexeme is a non-empty piece at the front

Each reader gives a piece that begins with the character it was started on, and the piece and the
rest make up the text. -/

/-- The piece `text` stands at the front of `c :: cs`, begins with `c`, and leaves `rest`. -/
def Splits (c : Char) (cs text rest : List Char) : Prop :=
  ∃ more, text = c :: more ∧ more ++ rest = cs

theorem splits_readWord (c : Char) (cs : List Char) :
    Splits c cs (readWord c cs).1.text (readWord c cs).2 :=
  ⟨_, rfl, List.takeWhile_append_dropWhile⟩

theorem splits_readNumber (c : Char) (cs : List Char) :
    Splits c cs (readNumber c cs).1.text (readNumber c cs).2 := by
  have split := List.takeWhile_append_dropWhile (p := Char.isDigit) (l := cs)
  unfold readNumber
  split
  · rename_i d rest heq
    split
    · exact ⟨_, rfl, by simpa [heq] using split⟩
    · exact ⟨_, rfl, by rw [← heq]; exact split⟩
  · exact ⟨_, rfl, split⟩

theorem splits_readGap (c : Char) (cs : List Char) :
    Splits c cs (readGap c cs).1.text (readGap c cs).2 :=
  ⟨_, rfl, List.takeWhile_append_dropWhile⟩

theorem splits_readComment? {c : Char} {cs : List Char} {l : Lexeme} {rest : List Char}
    (h : readComment? c cs = some (l, rest)) : Splits c cs l.text rest := by
  have split := List.takeWhile_append_dropWhile (p := (· != '}')) (l := cs)
  unfold readComment? at h
  split at h
  · cases h
  · rename_i close after heq
    cases h
    exact ⟨_, rfl, by rw [heq] at split; simpa using split⟩

theorem splits_read? {c : Char} {cs : List Char} {l : Lexeme} {rest : List Char}
    (h : read? (c :: cs) = some (l, rest)) : Splits c cs l.text rest := by
  simp only [read?] at h
  split at h
  · have key := splits_readWord c cs
    rwa [Option.some.inj h] at key
  · split at h
    · have key := splits_readNumber c cs
      rwa [Option.some.inj h] at key
    · split at h
      · have key := splits_readGap c cs
        rwa [Option.some.inj h] at key
      · split at h
        · cases h; exact ⟨[], rfl, rfl⟩
        · split at h
          · exact splits_readComment? h
          · split at h
            · rename_i hc
              cases h
              obtain ⟨rest, rfl⟩ := List.head?_eq_some_iff.1 hc.2
              exact ⟨['='], rfl, rfl⟩
            · obtain ⟨sign, -, hs⟩ := Option.map_eq_some_iff.1 h
              cases hs
              exact ⟨[], rfl, rfl⟩

/-- Nothing is lost: the lexeme and the rest make up the text. -/
theorem text_append_of_read? {cs : List Char} {l : Lexeme} {rest : List Char}
    (h : read? cs = some (l, rest)) : l.text ++ rest = cs := by
  cases cs with
  | nil => cases h
  | cons c cs =>
    obtain ⟨more, ht, hr⟩ := splits_read? h
    simp [ht, hr]

/-- The rest after a lexeme is shorter than the text: no lexeme is empty. -/
theorem length_lt_of_read? {cs : List Char} {l : Lexeme} {rest : List Char}
    (h : read? cs = some (l, rest)) : rest.length < cs.length := by
  cases cs with
  | nil => cases h
  | cons c cs =>
    obtain ⟨more, -, hr⟩ := splits_read? h
    rw [← hr, List.length_cons, List.length_append]
    omega

end Lexeme

end PocketPascal
