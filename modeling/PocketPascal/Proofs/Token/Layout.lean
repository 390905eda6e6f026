import PocketPascal.Proofs.Lines.Relocation
import PocketPascal.Proofs.Token.Segmentation

/-!
# More layout between two tokens

Dividers and comments can be put between two tokens of a text. The tokens in front of them are the
longest ones still, because no token has a character in it with which layout begins; those behind
them stand on lines further below. The blanks at the ends of the text are not touched by it, since a
token stands on either side.
-/

namespace PocketPascal

open Lexeme

/-- Dividers and closed comments, one after another. -/
inductive IsLayout : List Char → Prop where
  | none : IsLayout []
  | more {piece gap : List Char} (hp : IsFiller piece) (h : IsLayout gap) : IsLayout (piece ++ gap)

/-- The text begins with a character that no token has in it. -/
def Loose (text : List Char) : Prop := ∃ c cs, text = c :: cs ∧ (isDivider c ∨ c = '{')

theorem IsFiller.loose {piece : List Char} (h : IsFiller piece) (text : List Char) :
    Loose (piece ++ text) := by
  rcases h with ⟨c, hc, rfl⟩ | ⟨inner, rfl, -⟩
  · exact ⟨c, text, rfl, .inl hc⟩
  · exact ⟨'{', _, rfl, .inr rfl⟩

theorem IsLayout.nil_or_loose {gap : List Char} (h : IsLayout gap) (text : List Char) :
    gap = [] ∨ Loose (gap ++ text) := by
  cases h with
  | none => exact .inl rfl
  | more hp h =>
    rw [List.append_assoc]
    exact .inr (hp.loose _)

/-- What stands behind a token and the text after it may be replaced by a text that begins with
layout: no longer token reaches into it. -/
theorem IsLongest.reroute {kind : Kind} {piece text rest other : List Char}
    (h : IsLongest kind piece (text ++ rest)) (ho : Loose other) :
    IsLongest kind piece (text ++ other) := by
  refine ⟨h.solid, h.fits, fun kind' longer hsolid hfits hbegins => ?_, h.reserved⟩
  have hwithin : longer <+: piece ++ text := by
    have hboth : piece ++ text <+: piece ++ (text ++ other) := ⟨other, by rw [List.append_assoc]⟩
    rcases List.prefix_or_prefix_of_prefix hbegins hboth with hin | ⟨more, rfl⟩
    · exact hin
    · obtain ⟨c, cs, rfl, hc⟩ := ho
      rw [← List.append_assoc, List.prefix_append_right_inj] at hbegins
      cases more with
      | nil => exact ⟨[], by rw [List.append_nil, List.append_nil]⟩
      | cons d ds =>
        obtain ⟨rfl, -⟩ := List.cons_prefix_cons.1 hbegins
        obtain ⟨hdivider, hbrace⟩ := hfits.tight hsolid d (by simp)
        rcases hc with hc | hc
        · rw [hc] at hdivider
          cases hdivider
        · exact absurd hc hbrace
  obtain ⟨more, hmore⟩ := hwithin
  refine h.longest kind' longer hsolid hfits ⟨more ++ rest, ?_⟩
  rw [← List.append_assoc, hmore, List.append_assoc]

namespace Scans

variable {line line' : Nat} {text rest : List Char} {ts : List Token}

/-- A scan does not depend on what stands behind it, as long as that begins with layout. -/
theorem reroute (h : Scans line text ts line' rest) :
    ∃ taken, text = taken ++ rest ∧
      ∀ other, Loose other → Scans line (taken ++ other) ts line' other := by
  induction h with
  | here line text => exact ⟨[], rfl, fun other _ => .here line other⟩
  | @filler line line' piece text rest ts hp _ ih =>
    obtain ⟨taken, rfl, ih⟩ := ih
    refine ⟨piece ++ taken, by rw [List.append_assoc], fun other ho => ?_⟩
    rw [List.append_assoc]
    exact .filler hp (ih other ho)
  | @token line line' kind piece text rest ts hp _ ih =>
    obtain ⟨taken, rfl, ih⟩ := ih
    refine ⟨piece ++ taken, by rw [List.append_assoc], fun other ho => ?_⟩
    rw [List.append_assoc]
    exact .token (hp.reroute ho) (ih other ho)

/-- A scan that begins on a later line goes the same way. -/
theorem lower (n : Nat) (h : Scans line text ts line' rest) :
    Scans (line + n) text (ts.map (Token.relocate (· + n))) (line' + n) rest := by
  induction h with
  | here line text => exact .here _ _
  | @filler line line' piece text rest ts hp _ ih =>
    have hline : line + piece.count '\n' + n = line + n + piece.count '\n' := by omega
    rw [hline] at ih
    exact .filler hp ih
  | token hp _ ih => exact .token hp ih

theorem layout {gap : List Char} (h : IsLayout gap) (line : Nat) (text : List Char) :
    Scans line (gap ++ text) [] (line + gap.count '\n') text := by
  induction h generalizing line with
  | none => exact .here _ _
  | @more piece gap hp _ ih =>
    rw [List.append_assoc, List.count_append, ← Nat.add_assoc]
    exact .filler hp (ih _)

end Scans

/-! ## Blanks at the ends -/

namespace Text

def trimBack (cs : List Char) : List Char := (trimFront cs.reverse).reverse

theorem trimFront_append {xs : List Char} (h : trimFront xs ≠ []) (ys : List Char) :
    trimFront (xs ++ ys) = trimFront xs ++ ys := by
  unfold trimFront at h ⊢
  rw [List.dropWhile_append, if_neg (by simpa using h)]

theorem trimBack_append (xs : List Char) {ys : List Char} (h : trimBack ys ≠ []) :
    trimBack (xs ++ ys) = xs ++ trimBack ys := by
  have hfront : trimFront ys.reverse ≠ [] := by simpa [trimBack] using h
  rw [trimBack, List.reverse_append, trimFront_append hfront, List.reverse_append,
    List.reverse_reverse, trimBack]

theorem trimBack_append_of_nil (xs : List Char) {ys : List Char} (h : trimBack ys = []) :
    trimBack (xs ++ ys) = trimBack xs := by
  have hfront : trimFront ys.reverse = [] := by simpa [trimBack] using h
  unfold trimFront at hfront
  rw [trimBack, List.reverse_append, trimFront, List.dropWhile_append, if_pos (by simp [hfront])]
  rfl

theorem trimBack_begins (cs : List Char) : trimBack cs <+: cs := by
  have hsuffix : trimFront cs.reverse <:+ cs.reverse := List.dropWhile_suffix isBlank
  rw [← List.reverse_prefix, List.reverse_reverse] at hsuffix
  exact hsuffix

/-- Blanks in front of a beginning of a trimmed text are all that is trimmed from it. -/
theorem trimFront_append_of_eq {cs xs ys : List Char} (h : trimFront cs = xs ++ ys)
    (hxs : xs ≠ []) : trimFront (cs.takeWhile isBlank ++ xs) = xs := by
  cases xs with
  | nil => exact absurd rfl hxs
  | cons c xs =>
    have hc := List.head?_dropWhile_not isBlank cs
    unfold trimFront at h ⊢
    rw [h] at hc
    have hblank : isBlank c = false := hc
    rw [List.dropWhile_append_of_pos (fun d hd => List.mem_takeWhile_imp hd),
      List.dropWhile_cons_of_neg (by simp [hblank])]

/-- If a trimmed text has something on both sides of a place, then an insertion there leaves the
trimmed ends as they are. -/
theorem trim_insert {left right rest : List Char} (gap : List Char) (hleft : trimFront left ≠ [])
    (hrest : rest ≠ []) (h : trim (left ++ right) = trimFront left ++ rest) :
    trim (left ++ gap ++ right) = trimFront left ++ gap ++ rest := by
  have htrim : trimBack (trimFront left ++ right) = trimFront left ++ rest := by
    rw [← h, ← trimFront_append hleft]
    rfl
  have hright : trimBack right ≠ [] := by
    intro hnil
    rw [trimBack_append_of_nil _ hnil] at htrim
    have hle := (trimBack_begins (trimFront left)).length_le
    rw [htrim, List.length_append] at hle
    exact hrest (List.length_eq_zero_iff.1 (by omega))
  rw [trimBack_append _ hright] at htrim
  rw [← List.append_cancel_left htrim, ← trimBack_append _ hright, List.append_assoc,
    List.append_assoc, ← trimFront_append hleft]
  rfl

end Text

/-! ## Insertions into a source text -/

/-- In the source text, `left` comes to an end directly behind the last one of the tokens: the calls
that hand them out pass over all of it, but for the blanks at its front. -/
def EndsBehind (source : String) (ts : List Token) (left : List Char) : Prop :=
  ∃ s, (Scanner.ofSource source).Yields ts s ∧ s.passed.reverse = Text.trimFront left

namespace Scanner

/-- A scanner that has handed out tokens has passed over something. -/
theorem Yields.passed_ne_nil {source : String} {s : Scanner} {ts : List Token}
    (h : (ofSource source).Yields ts s) (hts : ts ≠ []) : s.passed.reverse ≠ [] := by
  intro hnil
  have htext : s.passed.reverse ++ s.rest = (ofSource source).rest := h.text
  have hlt := h.length_lt hts
  rw [← htext, hnil, List.nil_append] at hlt
  exact Nat.lt_irrefl _ hlt

/-- Where tokens come, there is text. -/
theorem Completes.rest_ne_nil {s : Scanner} {ts : List Token} {line : Nat} (h : s.Completes ts line)
    (hts : ts ≠ []) : s.rest ≠ [] := by
  intro hnil
  obtain ⟨s', hy, -⟩ := h
  cases hy with
  | none => exact hts rfl
  | more hn hk _ =>
    have hfinish := next_of_nil hnil
    rw [hn] at hfinish
    cases hfinish
    exact hk rfl

/-- Behind each token of a source text there is a place for insertions. -/
theorem Yields.exists_endsBehind {source : String} {s : Scanner} {ts : List Token}
    (h : (ofSource source).Yields ts s) (hts : ts ≠ []) :
    ∃ left right, source.toList = left ++ right ∧ EndsBehind source ts left := by
  have htext : s.passed.reverse ++ s.rest = Text.trim source.toList := h.text
  obtain ⟨back, hback⟩ := Text.trimBack_begins (Text.trimFront source.toList)
  have hfront : Text.trimFront source.toList = s.passed.reverse ++ (s.rest ++ back) := by
    rw [← List.append_assoc, htext]
    exact hback.symm
  refine ⟨source.toList.takeWhile Text.isBlank ++ s.passed.reverse, s.rest ++ back, ?_, s, h, ?_⟩
  · rw [List.append_assoc, ← hfront]
    exact List.takeWhile_append_dropWhile.symm
  · exact (Text.trimFront_append_of_eq hfront (h.passed_ne_nil hts)).symm

/-- After an insertion of layout behind some tokens, the tokens are the same, with those behind it
as many lines further below as it has line breaks. -/
theorem Completes.insert {left right gap : List Char} {us vs : List Token} {line : Nat}
    (h : (ofSource (String.ofList (left ++ right))).Completes (us ++ vs) line)
    (hplace : EndsBehind (String.ofList (left ++ right)) us left) (hus : us ≠ []) (hvs : vs ≠ [])
    (hgap : IsLayout gap) :
    (ofSource (String.ofList (left ++ gap ++ right))).Completes
      (us ++ vs.map (Token.relocate (· + gap.count '\n'))) (line + gap.count '\n') := by
  obtain ⟨s, hy, hpassed⟩ := hplace
  obtain ⟨vs', hsplit, hvs'⟩ := hy.split h
  obtain rfl := List.append_cancel_left hsplit
  have htext : s.passed.reverse ++ s.rest = Text.trim (String.ofList (left ++ right)).toList :=
    hy.text
  rw [hpassed, String.toList_ofList] at htext
  have hleft : Text.trimFront left ≠ [] := by
    rw [← hpassed]
    exact hy.passed_ne_nil hus
  have hinserted := Text.trim_insert gap hleft (hvs'.rest_ne_nil hvs) htext.symm
  have hbefore : Scans 1 (Text.trimFront left ++ s.rest) us s.line s.rest := by
    have hscans := hy.scans
    rwa [ofSource, String.toList_ofList, ← htext] at hscans
  -- the tokens in front of the layout
  have hfirst : Scans 1 (Text.trimFront left ++ (gap ++ s.rest)) us s.line (gap ++ s.rest) := by
    obtain ⟨taken, htaken, hreroute⟩ := hbefore.reroute
    obtain rfl := List.append_cancel_right htaken
    rcases hgap.nil_or_loose s.rest with rfl | hloose
    · exact hbefore
    · exact hreroute _ hloose
  have hsecond := (Scans.layout hgap s.line s.rest).append (hvs'.scans.lower (gap.count '\n'))
  rw [completes_iff_scans, ofSource, String.toList_ofList, hinserted, List.append_assoc]
  exact hfirst.append hsecond

end Scanner

end PocketPascal
