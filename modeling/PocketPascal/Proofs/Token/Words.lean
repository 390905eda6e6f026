import Mathlib.Data.List.Forall2
import PocketPascal.Proofs.Token.Calls
import PocketPascal.Syntax.Printer

/-!
# Scanning words that are spaced out

A word *stands* if it is one lexeme wherever a divider or nothing follows it: reserved words, names,
whole numbers and marks do. A text in which such words are spaced out is scanned word by word,
whatever the gaps are: the tokens are the words, each of the kind under which it stands.
-/

namespace PocketPascal

namespace Lexeme

/-- Whether a word is a name: a letter, then letters and digits, and not reserved. -/
def isIdentifier (word : String) : Bool :=
  match word.toList with
  | [] => false
  | c :: cs => c.isAlpha && cs.all Char.isAlphanum && (Keyword.ofText? word).isNone

/-- The text is at its end or goes on with a divider. -/
def Divided (rest : List Char) : Prop := ∀ c ∈ rest.head?, isDivider c

/-- A word is one lexeme of the given kind wherever a divider or nothing follows it. -/
structure Stands (word : String) (kind : Kind) : Prop where
  /-- The word is read. -/
  reads : ∀ rest, Divided rest → read? (word.toList ++ rest) = some (⟨kind, word.toList⟩, rest)
  /-- The word is no spacing. -/
  solid : kind.isSpacing = false
  /-- No blank is in the word. -/
  bare : ∀ c ∈ word.toList, Text.isBlank c = false

/-! ## Characters -/

theorem isDivider_iff {c : Char} : isDivider c ↔ isGap c ∨ c = '\n' := by
  simp [isDivider, isGap, or_assoc]

theorem isBlank_of_isDivider {c : Char} (h : isDivider c) : Text.isBlank c := by
  rw [isDivider_iff] at h
  simp only [isGap, Bool.or_eq_true, decide_eq_true_eq] at h
  rcases h with (((rfl | rfl) | rfl) | rfl) | rfl <;> decide

theorem isAlpha_iff_toNat {c : Char} :
    c.isAlpha ↔ (65 ≤ c.toNat ∧ c.toNat ≤ 90) ∨ (97 ≤ c.toNat ∧ c.toNat ≤ 122) := by
  have hdef : c.isAlpha = (decide (65 ≤ c.val ∧ c.val ≤ 90) ||
      (decide (97 ≤ c.val) && decide (c.val ≤ 122))) := rfl
  rw [hdef]
  simp only [Bool.or_eq_true, Bool.and_eq_true, decide_eq_true_eq, UInt32.le_iff_toNat_le]
  rfl

theorem isBlank_of_isAlphanum {c : Char} (h : c.isAlphanum) : Text.isBlank c = false := by
  have hrange : 48 ≤ c.toNat ∧ c.toNat ≤ 122 := by
    rw [Char.isAlphanum, Bool.or_eq_true, isAlpha_iff_toNat] at h
    rcases h with hletter | hdigit
    · omega
    · have : 48 ≤ c.toNat ∧ c.toNat ≤ 57 := Char.isDigit_iff_toNat.1 hdigit
      omega
  obtain ⟨hlow, hhigh⟩ := hrange
  simp only [Text.isBlank, Text.inRanges, Text.blankRanges, List.any_cons, List.any_nil,
    Bool.or_eq_false_iff, Bool.and_eq_false_iff, decide_eq_false_iff_not, and_true]
  omega

/-- A run of characters ends where the text is divided, if it has no dividers in it. -/
theorem takeWhile_divided {p : Char → Bool} {rest : List Char} (hr : Divided rest)
    (hp : ∀ c, isDivider c → p c = false) : rest.takeWhile p = [] ∧ rest.dropWhile p = rest := by
  cases rest with
  | nil => exact ⟨rfl, rfl⟩
  | cons c cs =>
    have hc : p c = false := hp c (hr c rfl)
    exact ⟨List.takeWhile_cons_of_neg (by simp [hc]), List.dropWhile_cons_of_neg (by simp [hc])⟩

theorem isAlphanum_of_isDivider {c : Char} (h : isDivider c) : c.isAlphanum = false := by
  cases hc : c.isAlphanum with
  | false => rfl
  | true =>
    have := isBlank_of_isAlphanum hc
    rw [isBlank_of_isDivider h] at this
    cases this

theorem isDigit_of_isDivider {c : Char} (h : isDivider c) : c.isDigit = false := by
  have := isAlphanum_of_isDivider h
  rw [Char.isAlphanum, Bool.or_eq_false_iff] at this
  exact this.2

/-! ## Words that stand -/

/-- A letter with letters and digits after it stands as a word. -/
theorem stands_word {word : String} {c : Char} {cs : List Char} (hw : word.toList = c :: cs)
    (hc : c.isAlpha) (hcs : ∀ d ∈ cs, d.isAlphanum) : Stands word (wordKind word.toList) := by
  have hc' : c.isAlphanum := by simp [Char.isAlphanum, hc]
  refine ⟨fun rest hr => ?_, ?_, ?_⟩
  · obtain ⟨htake, hdrop⟩ := takeWhile_divided hr fun _ => isAlphanum_of_isDivider
    rw [hw, List.cons_append, read?, if_pos hc, readWord, List.takeWhile_append_of_pos hcs,
      List.dropWhile_append_of_pos hcs, htake, hdrop, List.append_nil]
  · unfold wordKind
    split <;> rfl
  · intro d hd
    rw [hw] at hd
    rcases List.mem_cons.1 hd with rfl | hd
    · exact isBlank_of_isAlphanum hc'
    · exact isBlank_of_isAlphanum (hcs d hd)

theorem stands_identifier {word : String} (h : isIdentifier word) : Stands word .name := by
  unfold isIdentifier at h
  split at h
  · cases h
  · rename_i c cs hw
    simp only [Bool.and_eq_true, List.all_eq_true, Option.isNone_iff_eq_none] at h
    obtain ⟨⟨hc, hcs⟩, hk⟩ := h
    have hstands := stands_word hw hc hcs
    rwa [wordKind, String.ofList_toList, hk] at hstands

theorem stands_keyword (word : Keyword) : Stands word.text (.keyword word) := by
  have hletters : ∃ c cs, word.text.toList = c :: cs ∧ c.isAlpha ∧ cs.all Char.isAlphanum := by
    cases word <;> exact ⟨_, _, rfl, rfl, rfl⟩
  obtain ⟨c, cs, hw, hc, hcs⟩ := hletters
  have hstands := stands_word hw hc (List.all_eq_true.1 hcs)
  rwa [wordKind, String.ofList_toList, Keyword.ofText?_text] at hstands

/-- A mark stands. The equals sign that would make another mark of a colon is no divider. -/
theorem stands_mark (sign : Mark) : Stands sign.text (.mark sign) := by
  refine ⟨fun rest hr => ?_, rfl, ?_⟩
  · have hcolon : rest.head? ≠ some '=' := fun he => absurd (hr '=' he) (by decide)
    cases sign with
    | colon =>
      show read? (':' :: rest) = _
      simp [read?, isGap, hcolon, mark?]
      rfl
    | _ => rfl
  · have hbare : sign.text.toList.all fun c => !Text.isBlank c := by
      cases sign <;> rfl
    simpa using hbare

theorem stands_number (n : Nat) : Stands n.repr .integer := by
  have hdigits : ∀ d ∈ n.repr.toList, d.isDigit := by
    intro d hd
    rw [Nat.toList_repr] at hd
    exact Nat.isDigit_of_mem_toDigits (by decide) (by decide) hd
  obtain ⟨c, cs, hw⟩ : ∃ c cs, n.repr.toList = c :: cs := by
    rw [Nat.toList_repr]
    exact List.exists_cons_of_ne_nil Nat.toDigits_ne_nil
  refine ⟨fun rest hr => ?_, rfl, fun d hd => isBlank_of_isAlphanum ?_⟩
  · rw [hw] at hdigits ⊢
    have hc : c.isDigit := hdigits c (by simp)
    have halpha : c.isAlpha = false := by
      have hrange : 48 ≤ c.toNat ∧ c.toNat ≤ 57 := Char.isDigit_iff_toNat.1 hc
      rw [Bool.eq_false_iff, Ne, isAlpha_iff_toNat]
      omega
    have hcs : ∀ d ∈ cs, d.isDigit := fun d hd => hdigits d (by simp [hd])
    obtain ⟨htake, hdrop⟩ := takeWhile_divided hr fun _ => isDigit_of_isDivider
    have hpoint : ∀ more, rest ≠ '.' :: more := by
      rintro more rfl
      exact absurd (hr '.' rfl) (by decide)
    rw [List.cons_append, read?, halpha, if_neg (by decide), if_pos hc, readNumber,
      List.takeWhile_append_of_pos hcs, List.dropWhile_append_of_pos hcs, htake, hdrop,
      List.append_nil]
    split
    · exact absurd rfl (hpoint _)
    · rfl
  · simp [Char.isAlphanum, hdigits d hd]

namespace Stands

variable {word : String} {kind : Kind}

theorem ne_nil (h : Stands word kind) : word.toList ≠ [] := by
  intro hn
  have := h.reads [] (by simp [Divided])
  rw [hn] at this
  cases this

/-- A word stands under one kind only. -/
theorem kind_unique {kind' : Kind} (h : Stands word kind) (h' : Stands word kind') :
    kind' = kind := by
  have he := h'.reads [] (by simp [Divided])
  rw [h.reads [] (by simp [Divided])] at he
  simp only [Option.some.injEq, Prod.mk.injEq, Lexeme.mk.injEq, and_true] at he
  exact he.symm

end Stands

/-! ## Gaps -/

/-- A gap begins with spacing, and what is left of it after that is a shorter gap. -/
theorem read?_gap {gap text : List Char} (hg : gap ≠ []) (hd : ∀ c ∈ gap, isDivider c)
    (ht : ∀ c ∈ text.head?, Text.isBlank c = false) :
    ∃ (l : Lexeme) (left : List Char), read? (gap ++ text) = some (l, left ++ text) ∧
      l.kind.isSpacing ∧ left.length < gap.length ∧ ∀ c ∈ left, isDivider c := by
  obtain ⟨c, cs, rfl⟩ := List.exists_cons_of_ne_nil hg
  have hc : isDivider c := hd c List.mem_cons_self
  have hcs : ∀ d ∈ cs, isDivider d := fun d h => hd d (List.mem_cons_of_mem c h)
  rcases isDivider_iff.1 hc with hgap | rfl
  · -- a run of spaces, which ends in the gap or with it
    have hsub : (cs.dropWhile isGap).Sublist cs := List.dropWhile_sublist isGap
    have hstop : text.dropWhile isGap = text := by
      cases text with
      | nil => rfl
      | cons d ds =>
        have hd' : ¬ isGap d := fun h => by
          have := isBlank_of_isDivider (isDivider_iff.2 (.inl h))
          rw [ht d rfl] at this
          cases this
        exact List.dropWhile_cons_of_neg hd'
    have hrest : (cs ++ text).dropWhile isGap = cs.dropWhile isGap ++ text := by
      rw [List.dropWhile_append, hstop]
      split
      · rename_i hall
        have hnil : cs.dropWhile isGap = [] := by simpa using hall
        rw [hnil, List.nil_append]
      · rfl
    have halnum : c.isAlphanum = false := isAlphanum_of_isDivider hc
    rw [Char.isAlphanum, Bool.or_eq_false_iff] at halnum
    refine ⟨⟨.spacing .gap, c :: (cs ++ text).takeWhile isGap⟩, cs.dropWhile isGap, ?_, rfl, ?_, ?_⟩
    · rw [List.cons_append, read?, halnum.1, halnum.2, if_neg (by decide), if_neg (by decide),
        if_pos hgap, readGap, hrest]
    · have := hsub.length_le
      rw [List.length_cons]
      omega
    · exact fun d h => hcs d (hsub.subset h)
  · -- a line break
    exact ⟨⟨.spacing .newline, ['\n']⟩, cs, rfl, rfl, Nat.lt_succ_self _, hcs⟩

end Lexeme

/-! ## The text -/

/-- The token is the word. -/
structure Token.Spells (t : Token) (word : String) : Prop where
  /-- The token is written as the word. -/
  lexeme : t.lexeme = some word
  /-- The word stands under the kind of the token. -/
  stands : Lexeme.Stands word t.kind

/-- A text of words that stand begins with no blank and ends with none. -/
theorem SpacedOut.bare_ends {words : List String} {text : List Char} (h : SpacedOut words text)
    (hw : ∀ w ∈ words, ∃ kind, Lexeme.Stands w kind) :
    (∃ c cs, text = c :: cs ∧ Text.isBlank c = false) ∧
      ∀ c ∈ text.getLast?, Text.isBlank c = false := by
  have front : ∀ {word : String} (rest : List Char), (∃ kind, Lexeme.Stands word kind) →
      ∃ c cs, word.toList ++ rest = c :: cs ∧ Text.isBlank c = false := by
    rintro word rest ⟨kind, hs⟩
    obtain ⟨c, cs, he⟩ := List.exists_cons_of_ne_nil hs.ne_nil
    refine ⟨c, cs ++ rest, by rw [he, List.cons_append], hs.bare c ?_⟩
    rw [he]
    exact List.mem_cons_self
  induction h with
  | last word =>
    obtain ⟨kind, hs⟩ := hw word (by simp)
    refine ⟨?_, fun c hc => hs.bare c (List.mem_of_getLast? hc)⟩
    simpa using front [] ⟨kind, hs⟩
  | @more word words gap text hg hd h ih =>
    obtain ⟨⟨c, cs, rfl, -⟩, hlast⟩ := ih fun w hmem => hw w (List.mem_cons_of_mem word hmem)
    refine ⟨?_, fun d hd => hlast d ?_⟩
    · rw [List.append_assoc]
      exact front _ (hw word (by simp))
    · rw [List.getLast?_append] at hd
      simpa using hd

/-- Nothing is trimmed from a text without blanks at its ends. -/
theorem Text.trim_eq_self {cs : List Char} (hf : ∀ c ∈ cs.head?, isBlank c = false)
    (hl : ∀ c ∈ cs.getLast?, isBlank c = false) : trim cs = cs := by
  have keep : ∀ {ds : List Char}, (∀ c ∈ ds.head?, isBlank c = false) → trimFront ds = ds := by
    intro ds hds
    cases ds with
    | nil => rfl
    | cons d ds =>
      have hd : isBlank d = false := hds d rfl
      exact List.dropWhile_cons_of_neg (by simp [hd])
  unfold trim
  rw [keep hf, keep (by rwa [List.head?_reverse]), List.reverse_reverse]

namespace Scanner

theorem next_spacing {s : Scanner} {l : Lexeme} {rest : List Char}
    (hr : Lexeme.read? s.rest = some (l, rest)) (hl : l.kind.isSpacing) :
    s.next = (s.past l rest).next := by
  rw [next.eq_def s]
  split
  · rename_i hr'
    rw [hr] at hr'
    cases hr'
    rw [if_pos hl]
  · rename_i hr'
    rw [hr] at hr'
    cases hr'

/-- A gap changes nothing but the position of the next token. -/
theorem next_gap {gap text : List Char} (hd : ∀ c ∈ gap, isDivider c)
    (ht : ∀ c ∈ text.head?, Text.isBlank c = false) (s : Scanner) (hs : s.rest = gap ++ text) :
    ∃ s' : Scanner, s'.rest = text ∧ s.next = s'.next := by
  induction hn : gap.length using Nat.strongRecOn generalizing s gap with
  | ind n ih =>
    by_cases hg : gap = []
    · subst hg
      exact ⟨s, hs, rfl⟩
    · obtain ⟨l, left, hread, hl, hlt, hleft⟩ := Lexeme.read?_gap hg hd ht
      rw [hn] at hlt
      obtain ⟨s', hs', hnext⟩ := ih left.length hlt hleft (s.past l (left ++ text)) rfl rfl
      refine ⟨s', hs', ?_⟩
      rw [← hs] at hread
      rw [next_spacing hread hl, hnext]

theorem next_word {s : Scanner} {word : String} {kind : Kind} {rest : List Char}
    (hw : Lexeme.Stands word kind) (hs : s.rest = word.toList ++ rest) (hr : Lexeme.Divided rest) :
    s.next = (.ok ⟨kind, some word, s.line⟩, s.past ⟨kind, word.toList⟩ rest) := by
  have hread := hw.reads rest hr
  rw [← hs] at hread
  rw [next.eq_def]
  split
  · rename_i l rest' hread'
    rw [hread] at hread'
    cases hread'
    rw [if_neg (by simp [hw.solid]), String.ofList_toList]
  · rename_i hread'
    rw [hread] at hread'
    cases hread'

/-- Only the next call matters for the calls up to the end of the input. -/
theorem Completes.congr {s s' : Scanner} {ts : List Token} {line : Nat} (h : s'.Completes ts line)
    (hn : s.next = s'.next) : s.Completes ts line := by
  obtain ⟨s₁, hy, he⟩ := h
  cases hy with
  | none => exact ⟨s, .none s, by rw [hn, he]⟩
  | more h hk hs => exact ⟨s₁, .more (hn.trans h) hk hs, he⟩

/-- Words that stand and are spaced out are scanned one after another. -/
theorem completes_of_spacedOut {words : List String} {text : List Char}
    (h : SpacedOut words text) (hw : ∀ w ∈ words, ∃ kind, Lexeme.Stands w kind) (s : Scanner)
    (hs : s.rest = text) :
    ∃ ts line, s.Completes ts line ∧ List.Forall₂ Token.Spells ts words := by
  induction h generalizing s with
  | last word =>
    obtain ⟨kind, hstands⟩ := hw word (by simp)
    have hrest : s.rest = word.toList ++ [] := by rw [hs, List.append_nil]
    have hnext := next_word hstands hrest (by simp [Lexeme.Divided])
    have hend : (s.past ⟨kind, word.toList⟩ []).next.1 =
        .ok (.finish (s.past ⟨kind, word.toList⟩ []).line) := by
      rw [next]
      rfl
    refine ⟨[_], _, ⟨_, .more hnext ?_ (.none _), hend⟩, .cons ⟨rfl, hstands⟩ .nil⟩
    exact Lexeme.kind_ne_finish_of_read? (hstands.reads [] (by simp [Lexeme.Divided]))
  | @more word words gap text hg hd h ih =>
    obtain ⟨kind, hstands⟩ := hw word (by simp)
    have hw' : ∀ w ∈ words, ∃ kind, Lexeme.Stands w kind :=
      fun w hmem => hw w (List.mem_cons_of_mem word hmem)
    have hdivided : Lexeme.Divided (gap ++ text) := by
      obtain ⟨c, cs, rfl⟩ := List.exists_cons_of_ne_nil hg
      intro d he
      cases he
      exact hd c (by simp)
    have hrest : s.rest = word.toList ++ (gap ++ text) := by rw [hs, List.append_assoc]
    have hnext := next_word hstands hrest hdivided
    obtain ⟨⟨c, cs, rfl, hc⟩, -⟩ := h.bare_ends hw'
    have hfront : ∀ d ∈ (c :: cs).head?, Text.isBlank d = false := by
      intro d he
      cases he
      exact hc
    obtain ⟨s', hs', hgap⟩ := next_gap hd hfront (s.past ⟨kind, word.toList⟩ (gap ++ c :: cs)) rfl
    obtain ⟨ts, line, hcompletes, hspells⟩ := ih hw' s' hs'
    obtain ⟨s₁, hy, he⟩ := hcompletes.congr hgap
    refine ⟨_ :: ts, line, ⟨s₁, .more hnext ?_ hy, he⟩, .cons ⟨rfl, hstands⟩ hspells⟩
    exact Lexeme.kind_ne_finish_of_read? (hstands.reads [] (by simp [Lexeme.Divided]))

end Scanner

end PocketPascal
