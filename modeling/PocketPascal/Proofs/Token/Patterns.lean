import Mathlib.Data.List.TakeWhile
import PocketPascal.Proofs.Token.Words

/-!
# Patterns of tokens

What is written for each kind of token and of spacing, without regard to how a text is scanned.
Patterns overlap: a text may begin with a shorter and with a longer token, and a reserved word is
written like a name. So the token at the front of a text is the longest one, and of two kinds with
the same text it is the reserved word. The main statement is that `Lexeme.read?` finds this token,
or else a piece of spacing, wherever anything at the front fits a pattern.
-/

namespace PocketPascal

open Lexeme

/-! ## Patterns -/

/-- A letter, and then letters and digits. -/
def IsWord (text : List Char) : Prop :=
  ∃ c cs, text = c :: cs ∧ c.isAlpha ∧ ∀ d ∈ cs, d.isAlphanum

/-- Digits, at least one. -/
def IsDigits (text : List Char) : Prop := text ≠ [] ∧ ∀ d ∈ text, d.isDigit

/-- An opening brace, any characters but closing braces, and a closing brace. -/
def IsComment (text : List Char) : Prop :=
  ∃ inner, text = '{' :: (inner ++ ['}']) ∧ '}' ∉ inner

/-- The text fits the pattern of the kind. A reserved word fits the pattern of names, too. -/
def Kind.Fits : Kind → List Char → Prop
  | .keyword word, text => text = word.text.toList
  | .mark sign, text => text = sign.text.toList
  | .name, text => IsWord text
  | .integer, text => IsDigits text
  | .real, text => ∃ whole fraction, text = whole ++ '.' :: fraction ∧ IsDigits whole ∧
      IsDigits fraction
  | .spacing .comment, text => IsComment text
  | .spacing .newline, text => text = ['\n']
  | .spacing .gap, text => text ≠ [] ∧ ∀ c ∈ text, isGap c
  | .finish, _ => False

/-- Of all tokens that the text `text ++ rest` begins with, `text` is the longest, and it is of the
kind: a reserved word if it is spelled like one. -/
structure IsLongest (kind : Kind) (text rest : List Char) : Prop where
  /-- The kind is one of tokens. -/
  solid : kind.isSpacing = false
  /-- The piece fits the pattern of the kind. -/
  fits : kind.Fits text
  /-- No longer piece is a token. -/
  longest : ∀ (kind' : Kind) (longer : List Char), kind'.isSpacing = false → kind'.Fits longer →
    longer <+: text ++ rest → longer.length ≤ text.length
  /-- Reserved words are no names. -/
  reserved : ∀ word : Keyword, text = word.text.toList → kind = .keyword word

/-- The text begins with nothing that fits a pattern. -/
def IsStuck (text : List Char) : Prop :=
  ∀ (kind : Kind) (piece : List Char), kind.Fits piece → ¬ piece <+: text

/-! ## First characters -/

/-- A mark is known by its text. -/
theorem Mark.eq_of_toList_text {sign sign' : Mark} (h : sign.text.toList = sign'.text.toList) :
    sign = sign' := by
  cases sign <;> cases sign' <;> trivial

theorem isWord_keyword (word : Keyword) : IsWord word.text.toList := by
  have hletters : ∃ c cs, word.text.toList = c :: cs ∧ c.isAlpha ∧ cs.all Char.isAlphanum := by
    cases word <;> exact ⟨_, _, rfl, rfl, rfl⟩
  obtain ⟨c, cs, hw, hc, hcs⟩ := hletters
  exact ⟨c, cs, hw, hc, List.all_eq_true.1 hcs⟩

theorem not_isAlpha_of_isDigit {c : Char} (h : c.isDigit) : c.isAlpha = false := by
  have hrange : 48 ≤ c.toNat ∧ c.toNat ≤ 57 := Char.isDigit_iff_toNat.1 h
  rw [Bool.eq_false_iff, Ne, isAlpha_iff_toNat]
  omega

/-- What a text of tokens is that begins with a given character. -/
theorem Kind.Fits.front {kind : Kind} {c : Char} {cs : List Char} (h : kind.Fits (c :: cs))
    (hs : kind.isSpacing = false) :
    (c.isAlpha ∧ (∀ d ∈ cs, d.isAlphanum) ∧ (kind = .name ∨ ∃ word, kind = .keyword word)) ∨
    (c.isDigit ∧ (kind = .integer ∨ kind = .real)) ∨
    ∃ sign : Mark, kind = .mark sign ∧ c :: cs = sign.text.toList := by
  have word : IsWord (c :: cs) → c.isAlpha ∧ ∀ d ∈ cs, d.isAlphanum := by
    rintro ⟨d, ds, he, hd, hds⟩
    obtain ⟨rfl, rfl⟩ := List.cons.inj he
    exact ⟨hd, hds⟩
  cases kind with
  | keyword w =>
    have hw : c :: cs = w.text.toList := h
    obtain ⟨hc, hcs⟩ := word (hw ▸ isWord_keyword w)
    exact .inl ⟨hc, hcs, .inr ⟨w, rfl⟩⟩
  | mark sign => exact .inr (.inr ⟨sign, rfl, h⟩)
  | name =>
    obtain ⟨hc, hcs⟩ := word h
    exact .inl ⟨hc, hcs, .inl rfl⟩
  | integer =>
    obtain ⟨-, hd⟩ := h
    exact .inr (.inl ⟨hd c List.mem_cons_self, .inl rfl⟩)
  | real =>
    obtain ⟨whole, fraction, he, ⟨hne, hd⟩, -⟩ := h
    obtain ⟨w, ws, rfl⟩ := List.exists_cons_of_ne_nil hne
    rw [List.cons_append] at he
    obtain ⟨rfl, -⟩ := List.cons.inj he
    exact .inr (.inl ⟨hd c List.mem_cons_self, .inr rfl⟩)
  | spacing sort => cases hs
  | finish => cases h

theorem Kind.Fits.ne_nil {kind : Kind} {text : List Char} (h : kind.Fits text) : text ≠ [] := by
  rintro rfl
  cases kind with
  | keyword word => cases word <;> cases h
  | mark sign => cases sign <;> cases h
  | name =>
    obtain ⟨_, _, he, -⟩ := h
    cases he
  | integer => exact h.1 rfl
  | real =>
    obtain ⟨whole, fraction, he, -⟩ := h
    simp at he
  | spacing sort =>
    cases sort with
    | comment =>
      obtain ⟨_, he, -⟩ := h
      cases he
    | newline => cases h
    | gap => exact h.1 rfl
  | finish => exact h

/-! ## Words -/

/-- The part of a text that satisfies a predicate is no longer than the run at its front. -/
theorem length_le_takeWhile {p : Char → Bool} {piece text : List Char} (h : piece <+: text)
    (hp : ∀ c ∈ piece, p c) : piece.length ≤ (text.takeWhile p).length := by
  obtain ⟨more, rfl⟩ := h
  rw [List.takeWhile_append_of_pos hp, List.length_append]
  omega

theorem forall_takeWhile (p : Char → Bool) (cs : List Char) : ∀ c ∈ cs.takeWhile p, p c :=
  List.all_eq_true.1 (List.all_takeWhile (p := p) (l := cs))

theorem fits_wordKind {text : List Char} (h : IsWord text) : (wordKind text).Fits text := by
  unfold wordKind
  split
  · rename_i word hw
    have htext := Keyword.text_of_ofText? hw
    show text = word.text.toList
    rw [htext, String.toList_ofList]
  · exact h

theorem isLongest_readWord {c : Char} (cs : List Char) (hc : c.isAlpha) :
    IsLongest (readWord c cs).1.kind (readWord c cs).1.text (readWord c cs).2 := by
  have hsplit : (readWord c cs).1.text ++ (readWord c cs).2 = c :: cs := by
    simp [readWord, List.takeWhile_append_dropWhile]
  refine ⟨?_, fits_wordKind ⟨c, _, rfl, hc, forall_takeWhile _ cs⟩, ?_, ?_⟩
  · show (wordKind _).isSpacing = false
    unfold wordKind
    split <;> rfl
  · intro kind longer hs hf hbegins
    rw [hsplit] at hbegins
    obtain ⟨d, ds, rfl⟩ := List.exists_cons_of_ne_nil hf.ne_nil
    obtain ⟨rfl, hds⟩ := List.cons_prefix_cons.1 hbegins
    rcases hf.front hs with ⟨-, halnum, -⟩ | ⟨hdigit, -⟩ | ⟨sign, -, hsign⟩
    · have hle := length_le_takeWhile hds halnum
      simp only [readWord, List.length_cons]
      omega
    · rw [not_isAlpha_of_isDigit hdigit] at hc
      cases hc
    · cases sign <;> cases hsign <;> cases hc
  · intro word hw
    show wordKind (readWord c cs).1.text = .keyword word
    rw [hw, wordKind, String.ofList_toList, Keyword.ofText?_text]

/-! ## Numbers -/

/-- The digits in front of a point are the whole run of digits. -/
theorem takeWhile_digits {whole : List Char} (more : List Char) (h : ∀ d ∈ whole, d.isDigit) :
    (whole ++ '.' :: more).takeWhile Char.isDigit = whole ∧
      (whole ++ '.' :: more).dropWhile Char.isDigit = '.' :: more := by
  have hpoint : ('.' : Char).isDigit = false := rfl
  rw [List.takeWhile_append_of_pos h, List.dropWhile_append_of_pos h]
  simp [hpoint]

/-- What is read as a number: digits, and a point with digits after it if they are there. -/
theorem readNumber_cases (c : Char) (cs : List Char) :
    (∃ d rest, cs.dropWhile Char.isDigit = '.' :: d :: rest ∧ d.isDigit ∧
      readNumber c cs = (⟨.real, (c :: cs.takeWhile Char.isDigit) ++
        '.' :: d :: rest.takeWhile Char.isDigit⟩, rest.dropWhile Char.isDigit)) ∨
    ((∀ d rest, cs.dropWhile Char.isDigit = '.' :: d :: rest → ¬ d.isDigit) ∧
      readNumber c cs =
        (⟨.integer, c :: cs.takeWhile Char.isDigit⟩, cs.dropWhile Char.isDigit)) := by
  unfold readNumber
  split
  · rename_i d rest hdot
    by_cases hd : d.isDigit
    · left
      exact ⟨d, rest, hdot, hd, by rw [if_pos hd]⟩
    · right
      refine ⟨fun d' rest' he => ?_, by rw [if_neg hd, hdot]⟩
      rw [hdot] at he
      cases he
      exact hd
  · rename_i hno
    right
    exact ⟨fun d rest he => absurd he (hno d rest), rfl⟩

/-- Of the tokens that begin with a digit, those longer than the run of digits have a point and
digits after it. -/
theorem Kind.Fits.digits_or_point {kind : Kind} {c : Char} {cs piece : List Char}
    (h : kind.Fits piece) (hs : kind.isSpacing = false) (hc : c.isDigit)
    (hbegins : piece <+: c :: cs) :
    piece.length ≤ (cs.takeWhile Char.isDigit).length + 1 ∨
      ∃ fraction, IsDigits fraction ∧ '.' :: fraction <+: cs.dropWhile Char.isDigit ∧
        piece = (c :: cs.takeWhile Char.isDigit) ++ '.' :: fraction := by
  have hrun : (c :: cs).takeWhile Char.isDigit = c :: cs.takeWhile Char.isDigit :=
    List.takeWhile_cons_of_pos hc
  have hdrop : (c :: cs).dropWhile Char.isDigit = cs.dropWhile Char.isDigit :=
    List.dropWhile_cons_of_pos hc
  obtain ⟨d, ds, rfl⟩ := List.exists_cons_of_ne_nil h.ne_nil
  obtain ⟨rfl, -⟩ := List.cons_prefix_cons.1 hbegins
  rcases h.front hs with ⟨halpha, -⟩ | ⟨-, rfl | rfl⟩ | ⟨sign, -, hsign⟩
  · rw [not_isAlpha_of_isDigit hc] at halpha
    cases halpha
  · left
    have hle := length_le_takeWhile hbegins h.2
    rwa [hrun] at hle
  · right
    obtain ⟨whole, fraction, he, hwhole, hfraction⟩ := h
    obtain ⟨more, hmore⟩ := hbegins
    rw [he, List.append_assoc, List.cons_append] at hmore
    obtain ⟨htake, hrest⟩ := takeWhile_digits (fraction ++ more) hwhole.2
    rw [hmore, hrun] at htake
    rw [hmore, hdrop] at hrest
    exact ⟨fraction, hfraction, ⟨more, by rw [hrest, List.cons_append]⟩, by rw [htake, he]⟩
  · cases sign <;> cases hsign <;> cases hc

theorem isLongest_readNumber {c : Char} (cs : List Char) (hc : c.isDigit) :
    IsLongest (readNumber c cs).1.kind (readNumber c cs).1.text (readNumber c cs).2 := by
  have hdigits : IsDigits (c :: cs.takeWhile Char.isDigit) := by
    refine ⟨by simp, fun d hd => ?_⟩
    rcases List.mem_cons.1 hd with rfl | hd
    · exact hc
    · exact forall_takeWhile _ cs d hd
  obtain ⟨more, htext, happ⟩ := splits_readNumber c cs
  have hsplit : (readNumber c cs).1.text ++ (readNumber c cs).2 = c :: cs := by
    rw [htext, List.cons_append, happ]
  -- a text without a letter in front is no reserved word
  have hplain : ∀ word : Keyword, (readNumber c cs).1.text ≠ word.text.toList := by
    intro word hw
    obtain ⟨d, ds, he, hd, -⟩ := isWord_keyword word
    rw [← hw, htext] at he
    obtain ⟨rfl, -⟩ := List.cons.inj he
    rw [not_isAlpha_of_isDigit hc] at hd
    cases hd
  refine ⟨?_, ?_, fun kind piece hs hf hbegins => ?_, fun word hw => absurd hw (hplain word)⟩
  · rcases readNumber_cases c cs with ⟨d, rest, -, -, hread⟩ | ⟨-, hread⟩ <;> rw [hread] <;> rfl
  · rcases readNumber_cases c cs with ⟨d, rest, -, hd, hread⟩ | ⟨-, hread⟩
    · rw [hread]
      refine ⟨_, _, rfl, hdigits, by simp, fun x hx => ?_⟩
      rcases List.mem_cons.1 hx with rfl | hx
      · exact hd
      · exact forall_takeWhile _ rest x hx
    · rw [hread]
      exact hdigits
  · rw [hsplit] at hbegins
    have hlonger := hf.digits_or_point hs hc hbegins
    rcases readNumber_cases c cs with ⟨d, rest, hdot, hd, hread⟩ | ⟨hno, hread⟩
    · rw [hread]
      rw [hdot] at hlonger
      rcases hlonger with hle | ⟨fraction, hfraction, hfront, rfl⟩
      · simp only [List.length_append, List.length_cons]
        omega
      · obtain ⟨-, hfront⟩ := List.cons_prefix_cons.1 hfront
        have hle := length_le_takeWhile hfront hfraction.2
        rw [List.takeWhile_cons_of_pos hd] at hle
        simp only [List.length_append, List.length_cons] at hle ⊢
        omega
    · rw [hread]
      rcases hlonger with hle | ⟨fraction, hfraction, ⟨more, hmore⟩, -⟩
      · exact hle
      · obtain ⟨x, xs, rfl⟩ := List.exists_cons_of_ne_nil hfraction.1
        exact absurd (hfraction.2 x List.mem_cons_self) (hno x (xs ++ more) hmore.symm)

/-! ## Marks -/

theorem isLongest_mark {sign : Mark} {rest : List Char}
    (h : sign = .colon → rest.head? ≠ some '=') : IsLongest (.mark sign) sign.text.toList rest := by
  refine ⟨rfl, rfl, ?_, ?_⟩
  · intro kind longer hs hf hbegins
    obtain ⟨d, ds, rfl⟩ := List.exists_cons_of_ne_nil hf.ne_nil
    obtain ⟨c, cs, hc⟩ : ∃ c cs, sign.text.toList = c :: cs := by cases sign <;> exact ⟨_, _, rfl⟩
    rw [hc, List.cons_append] at hbegins
    obtain ⟨rfl, hds⟩ := List.cons_prefix_cons.1 hbegins
    have hplain : d.isAlpha = false ∧ d.isDigit = false := by
      cases sign <;> cases hc <;> exact ⟨rfl, rfl⟩
    rcases hf.front hs with ⟨halpha, -⟩ | ⟨hdigit, -⟩ | ⟨sign', -, hsign⟩
    · rw [hplain.1] at halpha
      cases halpha
    · rw [hplain.2] at hdigit
      cases hdigit
    · -- only the colon is the beginning of another mark
      rw [hc, List.length_cons]
      cases sign' with
      | assign =>
        cases hsign
        cases sign <;> cases hc
        · exact Nat.le_refl _
        · obtain ⟨more, hmore⟩ := hds
          refine absurd ?_ (h rfl)
          rw [← List.nil_append rest, ← hmore]
          rfl
      | _ =>
        cases hsign
        exact Nat.succ_le_succ (Nat.zero_le _)
  · intro word hw
    obtain ⟨c, cs, he, hc, -⟩ := isWord_keyword word
    rw [← hw] at he
    cases sign <;> cases he <;> cases hc

/-! ## The lexeme at the front -/

/-- A single character that is a mark. -/
theorem text_of_mark? {c : Char} {sign : Mark} (h : mark? c = some sign) :
    sign.text.toList = [c] := by
  unfold mark? at h
  split at h <;> cases h <;> rfl

/-- What is read as a comment: everything up to the first closing brace. -/
theorem readComment?_cases {c : Char} {cs : List Char} {l : Lexeme} {rest : List Char}
    (h : readComment? c cs = some (l, rest)) :
    ∃ inner, l = ⟨.spacing .comment, c :: (inner ++ ['}'])⟩ ∧ '}' ∉ inner := by
  unfold readComment? at h
  split at h
  · cases h
  · rename_i close after hclose
    cases h
    have hstop := List.head?_dropWhile_not (· != '}') cs
    rw [hclose] at hstop
    have hbrace : close = '}' := by simpa using hstop
    refine ⟨cs.takeWhile (· != '}'), by rw [hbrace, List.cons_append], fun hmem => ?_⟩
    simpa using forall_takeWhile _ _ _ hmem

/-- What is read, by the character at the front. -/
theorem read?_cases {c : Char} {cs : List Char} {l : Lexeme} {rest : List Char}
    (h : read? (c :: cs) = some (l, rest)) :
    (c.isAlpha ∧ readWord c cs = (l, rest)) ∨ (c.isDigit ∧ readNumber c cs = (l, rest)) ∨
    (isGap c ∧ readGap c cs = (l, rest)) ∨ (c = '\n' ∧ l = ⟨.spacing .newline, [c]⟩) ∨
    (c = '{' ∧ readComment? c cs = some (l, rest)) ∨
    ∃ sign : Mark, l = ⟨.mark sign, sign.text.toList⟩ ∧
      (sign = .colon → rest.head? ≠ some '=') := by
  simp only [read?] at h
  split at h
  · rename_i hc
    exact .inl ⟨hc, Option.some.inj h⟩
  split at h
  · rename_i hc
    exact .inr (.inl ⟨hc, Option.some.inj h⟩)
  split at h
  · rename_i hc
    exact .inr (.inr (.inl ⟨hc, Option.some.inj h⟩))
  split at h
  · rename_i hc
    cases h
    exact .inr (.inr (.inr (.inl ⟨hc, rfl⟩)))
  split at h
  · rename_i hc
    exact .inr (.inr (.inr (.inr (.inl ⟨hc, h⟩))))
  refine .inr (.inr (.inr (.inr (.inr ?_))))
  split at h
  · rename_i hassign
    cases h
    refine ⟨.assign, ?_, by simp⟩
    rw [hassign.1]
    rfl
  · rename_i hassign
    obtain ⟨sign, hmark, hl⟩ := Option.map_eq_some_iff.1 h
    cases hl
    refine ⟨sign, by rw [text_of_mark? hmark], ?_⟩
    rintro rfl hequals
    have hc := text_of_mark? hmark
    cases hc
    exact hassign ⟨rfl, hequals⟩

/-- The lexeme that is read is the token at the front of the text, unless it is spacing. -/
theorem isLongest_of_read? {cs : List Char} {l : Lexeme} {rest : List Char}
    (h : read? cs = some (l, rest)) (hs : l.kind.isSpacing = false) :
    IsLongest l.kind l.text rest := by
  cases cs with
  | nil => cases h
  | cons c cs =>
    rcases read?_cases h with ⟨hc, hr⟩ | ⟨hc, hr⟩ | ⟨-, hr⟩ | ⟨-, rfl⟩ | ⟨-, hr⟩ |
      ⟨sign, rfl, hsign⟩
    · have hword := isLongest_readWord cs hc
      rwa [hr] at hword
    · have hnumber := isLongest_readNumber cs hc
      rwa [hr] at hnumber
    · cases hr
      cases hs
    · cases hs
    · obtain ⟨inner, rfl, -⟩ := readComment?_cases hr
      cases hs
    · exact isLongest_mark hsign

/-- Spacing that is read fits its pattern. -/
theorem fits_of_read?_spacing {cs : List Char} {l : Lexeme} {rest : List Char}
    (h : read? cs = some (l, rest)) (hs : l.kind.isSpacing) : l.kind.Fits l.text := by
  cases cs with
  | nil => cases h
  | cons c cs =>
    rcases read?_cases h with ⟨hc, hr⟩ | ⟨hc, hr⟩ | ⟨hc, hr⟩ | ⟨hc, rfl⟩ | ⟨hc, hr⟩ | ⟨sign, rfl, -⟩
    · have hword := (isLongest_readWord cs hc).solid
      rw [hr, hs] at hword
      cases hword
    · have hnumber := (isLongest_readNumber cs hc).solid
      rw [hr, hs] at hnumber
      cases hnumber
    · cases hr
      refine ⟨by simp, fun d hd => ?_⟩
      rcases List.mem_cons.1 hd with rfl | hd
      · exact hc
      · exact forall_takeWhile _ _ d hd
    · rw [hc]
      rfl
    · obtain ⟨inner, rfl, hinner⟩ := readComment?_cases hr
      exact ⟨inner, by rw [hc], hinner⟩
    · cases hs

theorem fits_of_read? {cs : List Char} {l : Lexeme} {rest : List Char}
    (h : read? cs = some (l, rest)) : l.kind.Fits l.text := by
  cases hs : l.kind.isSpacing with
  | true => exact fits_of_read?_spacing h hs
  | false => exact (isLongest_of_read? h hs).fits

theorem read?_of_isGap {c : Char} (cs : List Char) (hc : isGap c) :
    read? (c :: cs) = some (readGap c cs) := by
  have halnum := isAlphanum_of_isDivider (isDivider_iff.2 (.inl hc))
  rw [Char.isAlphanum, Bool.or_eq_false_iff] at halnum
  rw [read?, if_neg (by simp [halnum.1]), if_neg (by simp [halnum.2]), if_pos hc]

/-- A closed comment is read to its end. -/
theorem read?_comment {inner : List Char} (text : List Char) (h : '}' ∉ inner) :
    read? ('{' :: (inner ++ '}' :: text)) =
      some (⟨.spacing .comment, '{' :: (inner ++ ['}'])⟩, text) := by
  have hne : ∀ c ∈ inner, (c != '}') = true := by
    intro c hc
    rw [bne_iff_ne]
    rintro rfl
    exact h hc
  have htake : (inner ++ '}' :: text).takeWhile (· != '}') = inner := by
    simp [List.takeWhile_append_of_pos hne]
  have hdrop : (inner ++ '}' :: text).dropWhile (· != '}') = '}' :: text := by
    simp [List.dropWhile_append_of_pos hne]
  show readComment? '{' (inner ++ '}' :: text) = _
  rw [readComment?, hdrop, htake]
  rfl

/-- Where a token stands, something is read. -/
theorem Kind.Fits.read?_ne_none {kind : Kind} {piece : List Char} (h : kind.Fits piece)
    (hs : kind.isSpacing = false) (text : List Char) : read? (piece ++ text) ≠ none := by
  obtain ⟨c, cs, rfl⟩ := List.exists_cons_of_ne_nil h.ne_nil
  rcases h.front hs with ⟨hc, -⟩ | ⟨hc, -⟩ | ⟨sign, -, hsign⟩
  · rw [List.cons_append, read?, if_pos hc]
    exact Option.some_ne_none _
  · have hletter : ¬ c.isAlpha := by simp [not_isAlpha_of_isDigit hc]
    rw [List.cons_append, read?, if_neg hletter, if_pos hc]
    exact Option.some_ne_none _
  · rw [hsign]
    cases sign with
    | colon =>
      -- a colon alone, or the beginning of an assignment sign
      have hgap : isGap ':' = false := rfl
      by_cases he : text.head? = some '='
      · simp [Mark.text, read?, hgap, he]
      · simp [Mark.text, read?, mark?, hgap, he]
    | _ => exact Option.some_ne_none _

/-- Where spacing stands, something is read. -/
theorem Kind.Fits.read?_ne_none_of_spacing {sort : Spacing} {piece : List Char}
    (h : (Kind.spacing sort).Fits piece) (text : List Char) : read? (piece ++ text) ≠ none := by
  cases sort with
  | comment =>
    obtain ⟨inner, rfl, hinner⟩ := h
    rw [List.cons_append, List.append_assoc, List.singleton_append, read?_comment text hinner]
    exact Option.some_ne_none _
  | newline =>
    have hpiece : piece = ['\n'] := h
    rw [hpiece]
    exact Option.some_ne_none _
  | gap =>
    obtain ⟨hne, hgap⟩ := h
    obtain ⟨c, cs, rfl⟩ := List.exists_cons_of_ne_nil hne
    rw [List.cons_append, read?_of_isGap _ (hgap c List.mem_cons_self)]
    exact Option.some_ne_none _

/-- Where no lexeme is read, nothing at the front fits a pattern. -/
theorem isStuck_of_read?_eq_none {cs : List Char} (h : read? cs = none) : IsStuck cs := by
  rintro kind piece hf ⟨text, rfl⟩
  cases hs : kind.isSpacing with
  | false => exact hf.read?_ne_none hs text h
  | true =>
    cases kind with
    | spacing sort => exact hf.read?_ne_none_of_spacing text h
    | _ => cases hs

/-! ## Tokens and spacing -/

/-- No token has a character in it that may stand between tokens. -/
theorem Kind.Fits.tight {kind : Kind} {text : List Char} (h : kind.Fits text)
    (hs : kind.isSpacing = false) : ∀ c ∈ text, isDivider c = false ∧ c ≠ '{' := by
  have alnum : ∀ c : Char, c.isAlphanum → isDivider c = false ∧ c ≠ '{' := by
    intro c hc
    constructor
    · cases hd : isDivider c with
      | false => rfl
      | true =>
        rw [isAlphanum_of_isDivider hd] at hc
        cases hc
    · rintro rfl
      cases hc
  have digit : ∀ c : Char, c.isDigit → isDivider c = false ∧ c ≠ '{' := by
    intro c hc
    exact alnum c (by simp [Char.isAlphanum, hc])
  have word : IsWord text → ∀ c ∈ text, isDivider c = false ∧ c ≠ '{' := by
    rintro ⟨d, ds, rfl, hd, hds⟩ c hc
    rcases List.mem_cons.1 hc with rfl | hc
    · exact alnum c (by simp [Char.isAlphanum, hd])
    · exact alnum c (hds c hc)
  cases kind with
  | keyword w =>
    have hw : text = w.text.toList := h
    exact word (hw ▸ isWord_keyword w)
  | mark sign =>
    have hsign : text = sign.text.toList := h
    have hall : sign.text.toList.all fun c => isDivider c = false ∧ c ≠ '{' := by
      cases sign <;> rfl
    rw [hsign]
    simpa using hall
  | name => exact word h
  | integer => exact fun c hc => digit c (h.2 c hc)
  | real =>
    obtain ⟨whole, fraction, rfl, hwhole, hfraction⟩ := h
    intro c hc
    rcases List.mem_append.1 hc with hc | hc
    · exact digit c (hwhole.2 c hc)
    rcases List.mem_cons.1 hc with rfl | hc
    · exact ⟨rfl, by decide⟩
    · exact digit c (hfraction.2 c hc)
  | spacing sort => cases hs
  | finish => cases h

/-- Spacing begins with a character that may stand between tokens. -/
theorem Kind.Fits.loose {sort : Spacing} {c : Char} {cs : List Char}
    (h : (Kind.spacing sort).Fits (c :: cs)) : isDivider c ∨ c = '{' := by
  cases sort with
  | comment =>
    obtain ⟨inner, he, -⟩ := h
    exact .inr (List.cons.inj he).1
  | newline =>
    obtain ⟨rfl, -⟩ := List.cons.inj h
    exact .inl rfl
  | gap => exact .inl (isDivider_iff.2 (.inl (h.2 c List.mem_cons_self)))

namespace IsLongest

variable {kind kind' : Kind} {text text' rest rest' : List Char}

/-- The same text is a token of one kind only. -/
theorem kind_unique (h : IsLongest kind text rest) (h' : IsLongest kind' text rest') :
    kind = kind' := by
  by_cases hword : ∃ word : Keyword, text = word.text.toList
  · obtain ⟨word, hw⟩ := hword
    rw [h.reserved word hw, h'.reserved word hw]
  · have plain : ∀ {k : Kind} {word : Keyword}, k.Fits text → k ≠ .keyword word := by
      rintro k word hf rfl
      exact hword ⟨word, hf⟩
    -- the digits of a whole number leave no room for a point
    have pointless : Kind.Fits .integer text → ¬ Kind.Fits .real text := by
      rintro ⟨-, hdigits⟩ ⟨whole, fraction, rfl, -⟩
      have hpoint := hdigits '.' (by simp)
      cases hpoint
    obtain ⟨c, cs, rfl⟩ := List.exists_cons_of_ne_nil h.fits.ne_nil
    have hfits := h.fits
    have hfits' := h'.fits
    rcases h.fits.front h.solid with ⟨hc, -, hk⟩ | ⟨hc, hk⟩ | ⟨sign, rfl, hsign⟩ <;>
      rcases h'.fits.front h'.solid with ⟨hc', -, hk'⟩ | ⟨hc', hk'⟩ | ⟨sign', rfl, hsign'⟩
    · rcases hk with rfl | ⟨word, rfl⟩
      · rcases hk' with rfl | ⟨word', rfl⟩
        · rfl
        · exact absurd rfl (plain hfits')
      · exact absurd rfl (plain hfits)
    · rw [not_isAlpha_of_isDigit hc'] at hc
      cases hc
    · cases sign' <;> cases hsign' <;> cases hc
    · rw [not_isAlpha_of_isDigit hc] at hc'
      cases hc'
    · rcases hk with rfl | rfl <;> rcases hk' with rfl | rfl
      · rfl
      · exact absurd hfits' (pointless hfits)
      · exact absurd hfits (pointless hfits')
      · rfl
    · cases sign' <;> cases hsign' <;> cases hc
    · cases sign <;> cases hsign <;> cases hc'
    · cases sign <;> cases hsign <;> cases hc'
    · rw [Mark.eq_of_toList_text (hsign.symm.trans hsign')]

/-- The token at the front of a text is determined. -/
theorem unique (h : IsLongest kind text rest) (h' : IsLongest kind' text' rest')
    (he : text ++ rest = text' ++ rest') : kind = kind' ∧ text = text' ∧ rest = rest' := by
  have hle := h'.longest kind text h.solid h.fits ⟨rest, he⟩
  have hle' := h.longest kind' text' h'.solid h'.fits ⟨rest', he.symm⟩
  obtain ⟨rfl, rfl⟩ := List.append_inj he (Nat.le_antisymm hle hle')
  exact ⟨h.kind_unique h', rfl, rfl⟩

/-- The token at the front of a text is the lexeme that is read. -/
theorem read? (h : IsLongest kind text rest) :
    Lexeme.read? (text ++ rest) = some (⟨kind, text⟩, rest) := by
  cases hread : Lexeme.read? (text ++ rest) with
  | none => exact absurd ⟨rest, rfl⟩ (isStuck_of_read?_eq_none hread kind text h.fits)
  | some found =>
    obtain ⟨⟨kind', text'⟩, rest'⟩ := found
    have happ : text' ++ rest' = text ++ rest := text_append_of_read? hread
    cases hs : kind'.isSpacing with
    | false =>
      obtain ⟨rfl, rfl, rfl⟩ := h.unique (isLongest_of_read? hread hs) happ.symm
      rfl
    | true =>
      -- spacing and a token cannot begin with the same character
      have hfits' : kind'.Fits text' := fits_of_read?_spacing hread hs
      obtain ⟨c, cs, rfl⟩ := List.exists_cons_of_ne_nil h.fits.ne_nil
      obtain ⟨d, ds, rfl⟩ := List.exists_cons_of_ne_nil hfits'.ne_nil
      obtain ⟨rfl, -⟩ := List.cons.inj happ
      obtain ⟨htight, hbrace⟩ := h.fits.tight h.solid d List.mem_cons_self
      cases kind' with
      | spacing sort =>
        rcases hfits'.loose with hd | hd
        · rw [htight] at hd
          cases hd
        · exact absurd hd hbrace
      | _ => cases hs

end IsLongest

end PocketPascal
