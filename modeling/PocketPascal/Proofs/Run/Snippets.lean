import Mathlib.Order.Bounds.Basic
import PocketPascal.Proofs.Run.Phases
import PocketPascal.Proofs.Syntax.Verdict

/-!
# Where an error of the scanner points

The scan over a text has no choice, so it comes to one place at most where nothing fits. An error of
the scanner is about the character at this place, and it shows the characters around it, up to ten
on either side, whatever number of bytes each of them takes. As an offset in bytes the place is a
boundary between characters, so the text can be split there. If a program cannot be read because of
an error of the scanner, it is the error in place of the list of all tokens.
-/

namespace PocketPascal

open Lexeme

/-! ## The scan has no choice -/

/-- At the position nothing fits, and the scan over the text comes there. -/
def IsDeadEnd (text : List Char) (p : Nat) : Prop :=
  p < text.length ∧ IsStuck (text.drop p) ∧ ∃ ts line, Scans 1 text ts line (text.drop p)

namespace IsFiller

variable {piece piece' text text' : List Char}

theorem exists_fits (h : IsFiller piece) : ∃ kind : Kind, kind.Fits piece := by
  rcases h with ⟨c, hc, rfl⟩ | h
  · rcases isDivider_iff.1 hc with hgap | rfl
    · refine ⟨.spacing .gap, by simp, ?_⟩
      intro d hd
      rw [List.mem_singleton.1 hd]
      exact hgap
    · exact ⟨.spacing .newline, rfl⟩
  · exact ⟨.spacing .comment, h⟩

/-- In front of a filler spacing is read, and no token. -/
theorem read?_isSpacing (h : IsFiller piece) (text : List Char) :
    ∃ l rest, read? (piece ++ text) = some (l, rest) ∧ l.kind.isSpacing = true := by
  rcases h with ⟨c, hc, rfl⟩ | ⟨inner, rfl, hinner⟩
  · rcases isDivider_iff.1 hc with hgap | rfl
    · exact ⟨(readGap c text).1, (readGap c text).2, read?_of_isGap text hgap, rfl⟩
    · exact ⟨⟨.spacing .newline, ['\n']⟩, text, rfl, rfl⟩
  · have hread := read?_comment text hinner
    refine ⟨⟨.spacing .comment, '{' :: (inner ++ ['}'])⟩, text, ?_, rfl⟩
    rw [List.cons_append, List.append_assoc]
    exact hread

theorem not_isLongest (h : IsFiller piece) {kind : Kind} (h' : IsLongest kind piece' text')
    (he : piece ++ text = piece' ++ text') : False := by
  obtain ⟨l, rest, hread, hspacing⟩ := h.read?_isSpacing text
  rw [he, h'.read?] at hread
  cases hread
  have hsolid := h'.solid
  rw [hspacing] at hsolid
  cases hsolid

/-- Fillers at the front of one text are the same. -/
theorem unique (h : IsFiller piece) (h' : IsFiller piece')
    (he : piece ++ text = piece' ++ text') : piece = piece' ∧ text = text' := by
  have hbrace : isDivider '{' = false := rfl
  rcases h with ⟨c, hc, rfl⟩ | ⟨inner, rfl, hinner⟩ <;>
    rcases h' with ⟨c', hc', rfl⟩ | ⟨inner', rfl, hinner'⟩
  · cases he
    exact ⟨rfl, rfl⟩
  · cases he
    rw [hbrace] at hc
    cases hc
  · cases he
    rw [hbrace] at hc'
    cases hc'
  · have hread := read?_comment text hinner
    have hread' := read?_comment text' hinner'
    simp only [List.cons_append, List.append_assoc, List.nil_append] at he
    rw [he, hread'] at hread
    obtain ⟨hlexeme, htext⟩ := Prod.mk.inj (Option.some.inj hread)
    exact ⟨(congrArg Lexeme.text hlexeme).symm, htext.symm⟩

end IsFiller

namespace Scans

variable {line line₁ line₂ : Nat} {text rest₁ rest₂ : List Char} {us vs : List Token}

theorem eq_of_isStuck (h : Scans line text us line₁ rest₁) (hs : IsStuck text) : rest₁ = text := by
  cases h with
  | here => rfl
  | @filler _ _ piece text _ _ hp _ =>
    obtain ⟨kind, hfits⟩ := hp.exists_fits
    exact absurd (List.prefix_append piece text) (hs kind piece hfits)
  | @token _ _ kind piece text _ _ hp _ =>
    exact absurd (List.prefix_append piece text) (hs kind piece hp.fits)

/-- Whatever the scan has passed over, a place where nothing fits lies ahead if it comes there. -/
theorem ahead (h : Scans line text us line₁ rest₁) (h' : Scans line text vs line₂ rest₂)
    (hs : IsStuck rest₂) : ∃ ws, Scans line₁ rest₁ ws line₂ rest₂ := by
  induction h generalizing vs with
  | here line text => exact ⟨vs, h'⟩
  | @filler line line₁ piece text rest₁ us hp _ ih =>
    generalize htext : piece ++ text = whole at h'
    cases h' with
    | here =>
      obtain ⟨kind, hfits⟩ := hp.exists_fits
      exact absurd ⟨text, htext⟩ (hs kind piece hfits)
    | filler hp' h' =>
      obtain ⟨rfl, rfl⟩ := hp.unique hp' htext
      exact ih h'
    | token hp' h' => exact (hp.not_isLongest hp' htext).elim
  | @token line line₁ kind piece text rest₁ us hp _ ih =>
    generalize htext : piece ++ text = whole at h'
    cases h' with
    | here => exact absurd ⟨text, htext⟩ (hs kind piece hp.fits)
    | filler hp' h' => exact (hp'.not_isLongest hp htext.symm).elim
    | token hp' h' =>
      obtain ⟨rfl, rfl, rfl⟩ := hp.unique hp' htext
      exact ih h'

end Scans

theorem IsDeadEnd.unique {text : List Char} {p q : Nat} (hp : IsDeadEnd text p)
    (hq : IsDeadEnd text q) : p = q := by
  obtain ⟨hlt, hstuck, us, line₁, hscans⟩ := hp
  obtain ⟨hlt', hstuck', vs, line₂, hscans'⟩ := hq
  obtain ⟨ws, hahead⟩ := hscans.ahead hscans' hstuck'
  have hrest : text.drop q = text.drop p := hahead.eq_of_isStuck hstuck
  have hlength := congrArg List.length hrest
  rw [List.length_drop, List.length_drop] at hlength
  omega

/-! ## Offsets in bytes -/

/-- The offset in bytes of a position in a text. -/
def Text.offset (text : List Char) (p : Nat) : Nat := (String.ofList (text.take p)).utf8ByteSize

namespace Text

/-- The offset of a position is a boundary between characters. -/
theorem isValid_offset (text : List Char) (p : Nat) :
    (⟨offset text p⟩ : String.Pos.Raw).IsValid (String.ofList text) := by
  refine String.Pos.Raw.isValid_iff_exists_append.2
    ⟨String.ofList (text.take p), String.ofList (text.drop p), ?_, ?_⟩
  · rw [← String.ofList_append, List.take_append_drop]
  · exact String.Pos.Raw.ext rfl

end Text

namespace Scanner

/-- At the offset of a position the text is split at the position. -/
theorem splitAtByte_offset (text : List Char) (p : Nat) :
    splitAtByte text (Text.offset text p) = (text.take p, text.drop p) := by
  have hsplit := splitAtByte_append (text.take p) (text.drop p)
  rw [List.take_append_drop] at hsplit
  exact hsplit

/-! ## The text around a position -/

/-- The text around the position of a scanner. -/
def snippet (s : Scanner) : String :=
  String.ofList ((s.passed.take snippetRadius).reverse ++ s.rest.take snippetRadius)

/-- The text around the offset is the text around the position. -/
theorem snippet_invalidCharacter (s : Scanner) : s.invalidCharacter.snippet = s.snippet := by
  rw [invalidCharacter, snippetAt, String.toList_ofList, splitAtByte_text]
  simp only [List.reverse_reverse, snippet]

/-- A snippet begins with the characters in front of the position, ten of them or as many as there
are. -/
theorem toList_snippet (s : Scanner) :
    s.snippet.toList = s.passed.reverse.drop (s.passed.length - snippetRadius) ++
      s.rest.take snippetRadius := by
  rw [snippet, String.toList_ofList, List.reverse_take]

/-- A snippet is a slice of the text. -/
theorem snippet_eq_extract (s : Scanner) :
    s.snippet.toList = s.text.extract (s.passed.length - snippetRadius)
      (min s.text.length (s.passed.length + snippetRadius)) := by
  have hlength : s.text.length = s.passed.length + s.rest.length := by simp [text]
  have hfront : s.passed.length - snippetRadius ≤ s.passed.reverse.length := by
    rw [List.length_reverse]
    omega
  rw [toList_snippet, List.extract_eq_take_drop, hlength, text,
    List.drop_append_of_le_length hfront, List.take_append]
  congr 1
  · rw [List.take_of_length_le]
    rw [List.length_drop, List.length_reverse]
    omega
  · rw [List.length_drop, List.length_reverse, List.take_eq_take_min]
    congr 1
    omega

/-- In a snippet the character at the position comes behind those in front of it. -/
theorem getElem?_snippet {s : Scanner} {c : Char} {cs : List Char} (h : s.rest = c :: cs) :
    s.snippet.toList[min snippetRadius s.passed.length]? = some c := by
  have hlength : (s.passed.reverse.drop (s.passed.length - snippetRadius)).length =
      min snippetRadius s.passed.length := by
    rw [List.length_drop, List.length_reverse]
    omega
  rw [toList_snippet, ← hlength, List.getElem?_append_right (Nat.le_refl _), Nat.sub_self, h]
  rfl

/-! ## The error -/

/-- An error of a call is about the character at a place to which the scan comes and where nothing
fits, and shows the text around it. -/
theorem exists_of_next_error {s : Scanner} {e : LexicalError} (h : s.next.1 = .error e) :
    ∃ (s₁ : Scanner) (cs : List Char), s₁.text = s.text ∧
      Scans s.line s.rest [] s₁.line s₁.rest ∧ IsStuck s₁.rest ∧
      s₁.rest = e.character :: cs ∧ e.snippet = s₁.snippet := by
  fun_induction next s with
  | case1 s l rest hr hl ih =>
    obtain ⟨s₁, cs, htext, hscans, hfound⟩ := ih h
    exact ⟨s₁, cs, htext.trans (text_past hr), (Scans.spacing hr hl s.line).append hscans, hfound⟩
  | case2 s l rest hr hl => cases h
  | case3 s hr hs => cases h
  | case4 s hr c cs hs =>
    cases h
    refine ⟨s, cs, rfl, .here _ _, isStuck_of_read?_eq_none hr, ?_, snippet_invalidCharacter s⟩
    rw [character_invalidCharacter hs, hs]

end Scanner

/-- An error of the scanner describes a position of a text. -/
structure LexicalError.Describes (e : LexicalError) (text : List Char) (p : Nat) : Prop where
  /-- The character is the one at the position. -/
  character : text[p]? = some e.character
  /-- The snippet is the slice of the text that begins ten characters before the position, or where
  the text begins, and ends ten characters behind it, or where the text ends. -/
  snippet : e.snippet.toList =
    text.extract (p - Scanner.snippetRadius) (min text.length (p + Scanner.snippetRadius))
  /-- In the snippet the character comes behind the at most ten ones before it. -/
  centred : e.snippet.toList[min Scanner.snippetRadius p]? = some e.character
  /-- As an offset in bytes the position is a boundary between characters. -/
  boundary : (⟨Text.offset text p⟩ : String.Pos.Raw).IsValid (String.ofList text)
  /-- There the text is split into the characters before the position and the other ones. -/
  split : Scanner.splitAtByte text (Text.offset text p) = (text.take p, text.drop p)
  /-- The snippet is the text around the offset. -/
  around : e.snippet = Scanner.snippetAt (String.ofList text) (Text.offset text p)

namespace Scanner

theorem describes_of_rest {s : Scanner} {e : LexicalError} {cs : List Char}
    (hrest : s.rest = e.character :: cs) (hsnippet : e.snippet = s.snippet) :
    e.Describes s.text s.passed.length := by
  have hlength : s.passed.reverse.length = s.passed.length := List.length_reverse
  have htake : s.text.take s.passed.length = s.passed.reverse := by
    rw [text, ← hlength, List.take_left]
  have hdrop : s.text.drop s.passed.length = s.rest := by
    rw [text, ← hlength, List.drop_left]
  have hsplit := splitAtByte_offset s.text s.passed.length
  refine ⟨?_, ?_, ?_, Text.isValid_offset _ _, hsplit, ?_⟩
  · rw [text, List.getElem?_append_right (Nat.le_of_eq hlength), hlength, Nat.sub_self, hrest]
    rfl
  · rw [hsnippet]
    exact s.snippet_eq_extract
  · rw [hsnippet]
    exact getElem?_snippet hrest
  · rw [hsnippet, snippetAt, String.toList_ofList, hsplit, htake, hdrop]
    simp [snippet]

/-- If the tokens of a source text cannot all be scanned, then the error describes the first
position of the text, without the blanks at its ends, at which the scan finds nothing. If a program
cannot be read because of an error of the scanner, it is this error. -/
theorem error_describes (source : String) :
    (∀ e, (ofSource source).tokenize.1 = .error e →
      ∃ p, IsLeast {q | IsDeadEnd (Text.trim source.toList) q} p ∧
        e.Describes (Text.trim source.toList) p) ∧
    ∀ e, Program.ofSource source = .error (.lexical e) →
      (ofSource source).tokenize.1 = .error e := by
  refine ⟨?_, ?_⟩
  · intro e h
    obtain ⟨ts, s, hyields, hnext⟩ := tokenize_eq_error_iff.1 h
    obtain ⟨s₁, cs, htext, hscans, hstuck, hrest, hsnippet⟩ := exists_of_next_error hnext
    have hwhole : s₁.text = Text.trim source.toList := htext.trans hyields.text
    have hdrop : (Text.trim source.toList).drop s₁.passed.length = s₁.rest := by
      rw [← hwhole, text, ← List.length_reverse, List.drop_left]
    have hdescribes := describes_of_rest hrest hsnippet
    rw [hwhole] at hdescribes
    have hdead : IsDeadEnd (Text.trim source.toList) s₁.passed.length := by
      refine ⟨?_, ?_, ts ++ [], s₁.line, ?_⟩
      · exact (List.getElem?_eq_some_iff.1 hdescribes.character).1
      · rw [hdrop]
        exact hstuck
      · rw [hdrop]
        exact hyields.scans.append hscans
    refine ⟨s₁.passed.length, ⟨hdead, ?_⟩, hdescribes⟩
    intro q hq
    exact Nat.le_of_eq (hdead.unique hq)
  · intro e h
    have hverdict := Grammar.verdict_ofSource source
    rw [h] at hverdict
    cases hverdict with
    | lexical yields next held viable => exact tokenize_eq_error_iff.2 ⟨_, _, yields, next⟩
    | misfit yields next held is found =>
      cases found

/-- A text with characters of one, two, three and four bytes, of which one begins nothing. -/
def wideText : String := " PROGRAM p; \x7bgrößer ≤ 😀\x7d é := 1"

/-- The program cannot be read because of this character, the 25th one of the text without the blank
in front. It begins with the 32nd byte. -/
theorem error_describes_wideText :
    Program.ofSource wideText = .error (.lexical ⟨'é', "ößer ≤ 😀\x7d é := 1", 1⟩) ∧
      (ofSource wideText).tokenize.1 = .error ⟨'é', "ößer ≤ 😀\x7d é := 1", 1⟩ ∧
      IsLeast {q | IsDeadEnd (Text.trim wideText.toList) q} 24 ∧
      LexicalError.Describes ⟨'é', "ößer ≤ 😀\x7d é := 1", 1⟩ (Text.trim wideText.toList) 24 ∧
      Text.offset (Text.trim wideText.toList) 24 = 31 := by
  have hread : Program.ofSource wideText = .error (.lexical ⟨'é', "ößer ≤ 😀\x7d é := 1", 1⟩) :=
    eq_error_of_map (by decide +kernel)
  have htokenize := (error_describes wideText).2 _ hread
  obtain ⟨p, hleast, hdescribes⟩ := (error_describes wideText).1 _ htokenize
  have honly : ∀ q < (Text.trim wideText.toList).length,
      (Text.trim wideText.toList)[q]? = some 'é' → q = 24 := by decide +kernel
  obtain rfl : p = 24 := honly p hleast.1.1 hdescribes.character
  exact ⟨hread, htokenize, hleast, hdescribes, by decide +kernel⟩

end Scanner

end PocketPascal
