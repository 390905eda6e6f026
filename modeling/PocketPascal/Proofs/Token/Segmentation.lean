import PocketPascal.Proofs.Token.Patterns

/-!
# Scanning as segmentation

A scan cuts a text into tokens and what stands between them, from left to right: dividers and closed
comments are passed over, and at every other position the longest token is taken. `Scans` says so
position by position and knows nothing of a scanner. The main statement is that the list of all
tokens is there exactly when the scan comes to the end of the text, and that there is an error
exactly when it comes to a place where nothing fits.
-/

namespace PocketPascal

open Lexeme

/-- A piece that stands between tokens: one divider, or a closed comment. -/
def IsFiller (piece : List Char) : Prop := (∃ c, isDivider c ∧ piece = [c]) ∨ IsComment piece

/-- From a position on a line, with a text after it, the scan passes over the tokens and comes to a
position on another line, with another text after it. -/
inductive Scans : Nat → List Char → List Token → Nat → List Char → Prop where
  /-- The scan stays where it is. -/
  | here (line : Nat) (text : List Char) : Scans line text [] line text
  /-- A piece that is no token is passed over. -/
  | filler {line line' : Nat} {piece text rest : List Char} {ts : List Token}
      (hp : IsFiller piece) (h : Scans (line + piece.count '\n') text ts line' rest) :
      Scans line (piece ++ text) ts line' rest
  /-- The longest token is taken. -/
  | token {line line' : Nat} {kind : Kind} {piece text rest : List Char} {ts : List Token}
      (hp : IsLongest kind piece text) (h : Scans line text ts line' rest) :
      Scans line (piece ++ text) (⟨kind, some (String.ofList piece), line⟩ :: ts) line' rest

/-! ## Line breaks -/

/-- There is no line break in a token. -/
theorem Kind.Fits.count_newline {kind : Kind} {text : List Char} (h : kind.Fits text)
    (hs : kind.isSpacing = false) : text.count '\n' = 0 := by
  rw [List.count_eq_zero]
  intro hmem
  have hdivider := (h.tight hs '\n' hmem).1
  cases hdivider

/-- No line break is counted for a token. -/
theorem Lexeme.breaks_of_not_isSpacing {l : Lexeme} (h : l.kind.isSpacing = false) :
    l.breaks = 0 := by
  obtain ⟨kind, piece⟩ := l
  cases kind with
  | spacing => cases h
  | _ => rfl

/-- The line breaks that are counted for a lexeme are the line feeds in it. -/
theorem Kind.Fits.breaks_eq_count {l : Lexeme} (h : l.kind.Fits l.text) :
    l.breaks = l.text.count '\n' := by
  cases hs : l.kind.isSpacing with
  | false => rw [breaks_of_not_isSpacing hs, h.count_newline hs]
  | true =>
    obtain ⟨kind, piece⟩ := l
    cases kind with
    | spacing sort =>
      cases sort with
      | comment => rfl
      | newline =>
        have hpiece : piece = ['\n'] := h
        rw [hpiece]
        rfl
      | gap =>
        refine (List.count_eq_zero.2 fun hmem => ?_).symm
        have hgap := h.2 '\n' hmem
        cases hgap
    | _ => cases hs

namespace Scans

variable {line line₁ line₂ : Nat} {text text₁ text₂ : List Char} {us vs : List Token}

theorem append (h : Scans line text us line₁ text₁) (h' : Scans line₁ text₁ vs line₂ text₂) :
    Scans line text (us ++ vs) line₂ text₂ := by
  induction h with
  | here => exact h'
  | filler hp _ ih => exact .filler hp (ih h')
  | token hp _ ih => exact .token hp (ih h')

/-- A run of dividers is passed over one by one. -/
theorem dividers {piece : List Char} (hp : ∀ c ∈ piece, isDivider c) (line : Nat)
    (text : List Char) : Scans line (piece ++ text) [] (line + piece.count '\n') text := by
  induction piece generalizing line with
  | nil => exact .here line text
  | cons c cs ih =>
    have hc : IsFiller [c] := .inl ⟨c, hp c List.mem_cons_self, rfl⟩
    have hcs := ih (fun d hd => hp d (List.mem_cons_of_mem c hd)) (line + [c].count '\n')
    have hcount : line + (c :: cs).count '\n' = line + [c].count '\n' + cs.count '\n' := by
      rw [← List.singleton_append, List.count_append, Nat.add_assoc]
    rw [hcount, ← List.singleton_append, List.append_assoc]
    exact .filler hc hcs

/-- A lexeme of spacing is passed over. -/
theorem spacing {l : Lexeme} {rest : List Char} (hr : read? text = some (l, rest))
    (hl : l.kind.isSpacing) (line : Nat) :
    Scans line text [] (line + l.breaks) rest := by
  have hfits := fits_of_read?_spacing hr hl
  rw [hfits.breaks_eq_count, ← text_append_of_read? hr]
  obtain ⟨kind, piece⟩ := l
  cases kind with
  | spacing sort =>
    cases sort with
    | comment => exact .filler (.inr hfits) (.here _ _)
    | newline =>
      have hpiece : piece = ['\n'] := hfits
      refine dividers (fun c hc => ?_) line rest
      rw [hpiece, List.mem_singleton] at hc
      rw [hc]
      rfl
    | gap => exact dividers (fun c hc => isDivider_iff.2 (.inl (hfits.2 c hc))) line rest
  | _ => cases hl

end Scans

namespace Scanner

/-! ## From calls to the scan -/

/-- What a call has scanned: one more token, the spacing up to the end of the text, or the spacing
up to a place where nothing fits. -/
inductive Call (s : Scanner) : Except LexicalError Token × Scanner → Prop where
  /-- A token has been handed out. -/
  | token {t : Token} {s' : Scanner} (hk : t.kind ≠ .finish)
      (h : Scans s.line s.rest [t] s'.line s'.rest) : Call s (.ok t, s')
  /-- The end of the input has been handed out. -/
  | finish {s' : Scanner} (h : Scans s.line s.rest [] s'.line []) :
      Call s (.ok (.finish s'.line), s')
  /-- An error has been handed out. -/
  | error {e : LexicalError} {cs : List Char} {s' : Scanner}
      (h : Scans s.line s.rest [] e.line (e.character :: cs)) (hs : IsStuck (e.character :: cs)) :
      Call s (.error e, s')

theorem call_next (s : Scanner) : s.Call s.next := by
  fun_induction next s with
  | case1 s l rest hr hl ih =>
    have hspacing := Scans.spacing hr hl s.line
    generalize (s.past l rest).next = answer at ih ⊢
    cases ih with
    | token hk h => exact .token hk (hspacing.append h)
    | finish h => exact .finish (hspacing.append h)
    | error h hs => exact .error (hspacing.append h) hs
  | case2 s l rest hr hl =>
    have hlongest := isLongest_of_read? hr (by simpa using hl)
    have hline : (s.past l rest).line = s.line := by
      show s.line + l.breaks = s.line
      rw [breaks_of_not_isSpacing hlongest.solid, Nat.add_zero]
    refine .token (kind_ne_finish_of_read? hr) ?_
    rw [hline, ← text_append_of_read? hr]
    exact .token hlongest (.here _ _)
  | case3 s hr hs =>
    refine .finish ?_
    rw [hs]
    exact .here _ _
  | case4 s hr c cs hs =>
    have hrest : s.rest = s.invalidCharacter.character :: cs := by
      rw [character_invalidCharacter hs, hs]
    have hhere : Scans s.line s.rest [] s.line (s.invalidCharacter.character :: cs) := by
      rw [hrest]
      exact .here _ _
    have hstuck : IsStuck (s.invalidCharacter.character :: cs) := by
      rw [← hrest]
      exact isStuck_of_read?_eq_none hr
    exact .error hhere hstuck

theorem Yields.scans {s s' : Scanner} {ts : List Token} (h : s.Yields ts s') :
    Scans s.line s.rest ts s'.line s'.rest := by
  induction h with
  | none s => exact .here _ _
  | @more s s₁ s' t ts hn hk _ ih =>
    have hcall := call_next s
    rw [hn] at hcall
    cases hcall with
    | token _ h => exact h.append ih
    | finish _ => exact absurd rfl hk

theorem Completes.scans {s : Scanner} {ts : List Token} {line : Nat} (h : s.Completes ts line) :
    Scans s.line s.rest ts line [] := by
  obtain ⟨s', hy, he⟩ := h
  have hcall := call_next s'
  generalize s'.next = answer at hcall he
  cases hcall with
  | token hk _ =>
    cases he
    exact absurd rfl hk
  | finish h =>
    cases he
    have hscans := hy.scans.append h
    rwa [List.append_nil] at hscans
  | error _ _ => cases he

/-! ## From the scan to calls -/

/-- The scanner behind a piece of the text, with all line feeds in the piece counted. -/
def across (s : Scanner) (piece rest : List Char) : Scanner :=
  ⟨piece.reverse ++ s.passed, rest, s.line + piece.count '\n'⟩

/-- All line feeds in a lexeme are counted. -/
theorem past_eq_across {s : Scanner} {l : Lexeme} {rest : List Char}
    (h : Lexeme.read? s.rest = some (l, rest)) : s.past l rest = s.across l.text rest := by
  rw [past, across, (fits_of_read? h).breaks_eq_count]

/-- Moving across two pieces is moving across both together. -/
theorem across_across (s : Scanner) (piece piece' text text' : List Char) :
    (s.across piece text).across piece' text' = s.across (piece ++ piece') text' := by
  simp [across, Nat.add_assoc]

/-- Spacing changes nothing but the position of the next token. -/
theorem next_across {s : Scanner} {l : Lexeme} {rest : List Char}
    (hr : Lexeme.read? s.rest = some (l, rest)) (hl : l.kind.isSpacing) :
    s.next = (s.across l.text rest).next := by
  rw [next_spacing hr hl, past_eq_across hr]

/-- A gap may be passed over character by character, although a call takes the whole run. -/
theorem next_across_gap {s : Scanner} {c : Char} {text : List Char} (hc : isGap c)
    (hs : s.rest = c :: text) : s.next = (s.across [c] text).next := by
  have hread := read?_of_isGap text hc
  rw [← hs] at hread
  rw [next_across hread rfl]
  cases text with
  | nil => rfl
  | cons d ds =>
    by_cases hd : isGap d
    · have hrest : (s.across [c] (d :: ds)).rest = d :: ds := rfl
      have hread' := read?_of_isGap ds hd
      rw [← hrest] at hread'
      rw [next_across hread' rfl, across_across]
      simp [hd]
    · simp [hd]

/-- A filler changes nothing but the position of the next token. -/
theorem next_filler {s : Scanner} {piece text : List Char} (hp : IsFiller piece)
    (hs : s.rest = piece ++ text) : s.next = (s.across piece text).next := by
  rcases hp with ⟨c, hc, rfl⟩ | ⟨inner, rfl, hinner⟩
  · rcases isDivider_iff.1 hc with hgap | rfl
    · exact next_across_gap hgap hs
    · have hread : Lexeme.read? s.rest = some (⟨.spacing .newline, ['\n']⟩, text) := by
        rw [hs]
        rfl
      exact next_across hread rfl
  · have hread := read?_comment text hinner
    have hrest : s.rest = '{' :: (inner ++ '}' :: text) := by simpa using hs
    rw [← hrest] at hread
    exact next_across hread rfl

/-- A call takes the longest token. -/
theorem next_longest {s : Scanner} {kind : Kind} {piece text : List Char}
    (hp : IsLongest kind piece text) (hs : s.rest = piece ++ text) :
    s.next = (.ok ⟨kind, some (String.ofList piece), s.line⟩, s.past ⟨kind, piece⟩ text) := by
  have hread := hp.read?
  rw [← hs] at hread
  rw [next]
  split
  · rename_i l rest hread'
    rw [hread] at hread'
    cases hread'
    rw [if_neg (by simp [hp.solid])]
  · rename_i hread'
    rw [hread] at hread'
    cases hread'

/-- Calls follow the scan: after those that hand out its tokens, the next call is one at the
position to which the scan has come. -/
theorem yields_of_scans {line line' : Nat} {text rest : List Char} {ts : List Token}
    (h : Scans line text ts line' rest) (s : Scanner) (hs : s.rest = text) (hl : s.line = line) :
    ∃ s₁ s₂ : Scanner, s.Yields ts s₁ ∧ s₁.next = s₂.next ∧ s₂.rest = rest ∧ s₂.line = line' := by
  induction h generalizing s with
  | here line text => exact ⟨s, s, .none s, rfl, hs, hl⟩
  | @filler line line' piece text rest ts hp _ ih =>
    have hnext := next_filler hp hs
    obtain ⟨s₁, s₂, hy, hn, hr, hl'⟩ := ih (s.across piece text) rfl (by rw [across, hl])
    cases hy with
    | none => exact ⟨s, s₂, .none s, hnext.trans hn, hr, hl'⟩
    | more ht hk hy => exact ⟨s₁, s₂, .more (hnext.trans ht) hk hy, hn, hr, hl'⟩
  | @token line line' kind piece text rest ts hp _ ih =>
    have hnext := next_longest hp hs
    have hline : (s.past ⟨kind, piece⟩ text).line = line := by
      rw [past, breaks_of_not_isSpacing hp.solid, Nat.add_zero, hl]
    have hk : kind ≠ .finish := by
      rintro rfl
      exact hp.fits
    obtain ⟨s₁, s₂, hy, hn, hr, hl'⟩ := ih (s.past ⟨kind, piece⟩ text) rfl hline
    rw [hl] at hnext
    exact ⟨s₁, s₂, .more hnext hk hy, hn, hr, hl'⟩

/-- A call at the end of the text hands out the end of the input. -/
theorem next_of_nil {s : Scanner} (hs : s.rest = []) : s.next.1 = .ok (.finish s.line) := by
  rw [next]
  split
  · rename_i hread
    rw [hs] at hread
    cases hread
  · rw [hs]

/-- A call where nothing fits hands out an error. -/
theorem next_of_isStuck {s : Scanner} (hs : IsStuck s.rest) (hne : s.rest ≠ []) :
    ∃ e, s.next.1 = .error e := by
  rw [next]
  split
  · rename_i l rest hread
    exact absurd ⟨rest, text_append_of_read? hread⟩ (hs l.kind l.text (fits_of_read? hread))
  · split
    · rename_i hnil
      exact absurd hnil hne
    · exact ⟨_, rfl⟩

theorem completes_iff_scans {s : Scanner} {ts : List Token} {line : Nat} :
    s.Completes ts line ↔ Scans s.line s.rest ts line [] := by
  constructor
  · exact Completes.scans
  · intro h
    obtain ⟨s₁, s₂, hy, hn, hr, rfl⟩ := yields_of_scans h s rfl rfl
    exact ⟨s₁, hy, by rw [hn, next_of_nil hr]⟩

/-- There is an error exactly if the scan comes to a place where nothing fits. -/
theorem tokenize_error_iff_scans {s : Scanner} :
    (∃ e, s.tokenize.1 = .error e) ↔
      ∃ ts line rest, Scans s.line s.rest ts line rest ∧ rest ≠ [] ∧ IsStuck rest := by
  constructor
  · rintro ⟨e, he⟩
    obtain ⟨ts, s', hy, he'⟩ := tokenize_eq_error_iff.1 he
    have hcall := call_next s'
    generalize s'.next = answer at hcall he'
    cases hcall with
    | token _ _ => cases he'
    | finish _ => cases he'
    | error h hs =>
      have hscans := hy.scans.append h
      rw [List.append_nil] at hscans
      exact ⟨ts, _, _, hscans, by simp, hs⟩
  · rintro ⟨ts, line, rest, h, hne, hs⟩
    obtain ⟨s₁, s₂, hy, hn, rfl, -⟩ := yields_of_scans h s rfl rfl
    obtain ⟨e, he⟩ := next_of_isStuck hs hne
    exact ⟨e, tokenize_eq_error_iff.2 ⟨ts, s₁, hy, by rw [hn, he]⟩⟩

/-- The tokens of a source text are those of the scan over it, without the blanks at its ends, from
the first line on. All of them are there exactly if the scan comes to the end of the text, with the
end of the input as the last one; and there is an error exactly if it comes to a character with
which no token, no divider and no closed comment begins. -/
theorem tokenize_iff_scans (source : String) :
    (∀ all, (ofSource source).tokenize.1 = .ok all ↔
      ∃ ts line, Scans 1 (Text.trim source.toList) ts line [] ∧ all = ts ++ [.finish line]) ∧
    ((∃ e, (ofSource source).tokenize.1 = .error e) ↔
      ∃ ts line rest, Scans 1 (Text.trim source.toList) ts line rest ∧ rest ≠ [] ∧
        IsStuck rest) := by
  refine ⟨fun all => ?_, tokenize_error_iff_scans⟩
  rw [tokenize_eq_ok_iff]
  constructor
  · rintro ⟨ts, line, h, rfl⟩
    exact ⟨ts, line, h.scans, rfl⟩
  · rintro ⟨ts, line, h, rfl⟩
    exact ⟨ts, line, completes_iff_scans.2 h, rfl⟩

end Scanner

end PocketPascal
