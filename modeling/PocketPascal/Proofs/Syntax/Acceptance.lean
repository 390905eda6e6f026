import PocketPascal.Proofs.Syntax.Declarations
import PocketPascal.Proofs.Syntax.Numbers

/-!
# Which texts are programs

The main statement is that a source text is read as a program exactly when its tokens are derived in
the grammar and its numbers can be held, and that the tree is then the only one that the tokens are
derived for.
-/

namespace PocketPascal.Grammar

/-- What is read from a source text comes from the reader of programs on the first cursor. -/
theorem ofSource_eq_readAll {source : String} {c : Cursor} (hc : Cursor.ofSource source = .ok c) :
    Program.ofSource source = Program.readAll c := by
  rw [Program.ofSource, hc]
  rfl

/-- Tokens that are derived for a program are read as this program. -/
theorem readAll_of_isProgram {c : Cursor} {s : Scanner} {ts : List Token} {line : Nat} {p : Program}
    (hs : c.StandsAt s) (hc : s.Completes ts line) (hh : Held ts) (hp : IsProgram Numbered ts p) :
    Program.readAll c = .ok p := by
  have meets := meets_program c
  -- Every text that the cursor has seen is a beginning of the tokens and the end of the input.
  have seen : ∀ {us : List Token} {c' : Cursor}, c.Eats us c' →
      ∃ more, ts ++ [.finish line] = us ++ [c'.current] ++ more := by
    intro us c' heats
    obtain ⟨s', hy, s'', hn, -⟩ := heats.standsAt hs
    obtain ⟨rest, rfl, hr⟩ := hy.split hc
    obtain ⟨t, _, more, _, hn', ht, -⟩ := hr.next
    rw [hn] at hn'
    cases hn'
    exact ⟨more, by rw [List.append_assoc, ht, List.append_assoc, List.singleton_append]⟩
  rw [Program.readAll]
  cases hr : Program.read c with
  | done q c' lt =>
    rw [hr] at meets
    cases meets with
    | @done us _ _ _ eats held is forces =>
      obtain ⟨more, hm⟩ := seen eats
      obtain ⟨rfl, rfl⟩ := forces more ts [.finish line] p hp clear_none hm
      have hfinish : c'.current = .finish line := by
        rw [List.append_assoc, List.append_cancel_left_eq] at hm
        exact (List.cons.inj hm).1.symm
      simp [Cursor.isAt, hfinish, Token.finish]
  | failed cause after =>
    rw [hr] at meets
    exfalso
    cases meets with
    | unexpected eats held opens forces =>
      obtain ⟨more, hm⟩ := seen eats
      exact forces more ts [.finish line] p hp clear_none hm
    | noType eats held opens forces =>
      obtain ⟨more, hm⟩ := seen eats
      exact forces more ts [.finish line] p hp clear_none hm
    | lexical eats held pull opens forces =>
      obtain ⟨s', hy, hs'⟩ := eats.standsAt hs
      obtain ⟨s'', hn, he⟩ := hs'.next_error pull
      obtain ⟨rest, rfl, hr⟩ := hy.split hc
      obtain ⟨t, s₁, _, rest', hn', -, hr'⟩ := hr.next
      rw [hn] at hn'
      cases hn'
      obtain ⟨t', _, _, _, hn'', -⟩ := hr'.next
      rw [hn''] at he
      cases he
    | @literal us t _ eats held number none opens _ =>
      obtain ⟨s', hy, -⟩ := eats.standsAt hs
      obtain ⟨rest, rfl, -⟩ := hy.split hc
      have := hh t (by simp) number
      rw [none] at this
      cases this

/-- A program that was read is derived for the tokens of its source text. -/
theorem isProgram_of_readAll {c : Cursor} {s : Scanner} {p : Program} (hs : c.StandsAt s)
    (h : Program.readAll c = .ok p) :
    ∃ ts line, s.Completes ts line ∧ Held ts ∧ IsProgram Numbered ts p := by
  have meets := meets_program c
  rw [Program.readAll] at h
  split at h
  · rename_i q c' lt hr
    rw [hr] at meets
    split at h
    · rename_i hfinish
      cases h
      cases meets with
      | @done us _ _ _ eats held is forces =>
        obtain ⟨s', hy, s'', hn, -⟩ := eats.standsAt hs
        have hk : c'.current.kind = .finish := by simpa [Cursor.isAt] using hfinish
        have ht := (Scanner.next_of_finish hn hk).1
        exact ⟨us, s''.line, ⟨s', hy, by rw [hn, ht]⟩, held, is⟩
    · cases h
  · cases h

/-- A source text whose tokens are complete has a first cursor. -/
theorem ofSource_of_completes {source : String} {ts : List Token} {line : Nat}
    (h : (Scanner.ofSource source).Completes ts line) : ∃ c, Cursor.ofSource source = .ok c := by
  cases hc : Cursor.ofSource source with
  | ok c => exact ⟨c, rfl⟩
  | error cause =>
    obtain ⟨e, -, he⟩ := Cursor.ofSource_eq_error_iff.1 hc
    obtain ⟨t, _, _, _, hn, -⟩ := h.next
    rw [hn] at he
    cases he

/-- A program is read from a source text exactly if it is derived for its tokens, in the grammar
whose numbers have their values. -/
theorem ofSource_eq_ok_iff_completes {source : String} {p : Program} :
    Program.ofSource source = .ok p ↔
      ∃ ts line, (Scanner.ofSource source).Completes ts line ∧ Held ts ∧
        IsProgram Numbered ts p := by
  constructor
  · intro h
    cases hc : Cursor.ofSource source with
    | ok c =>
      rw [ofSource_eq_readAll hc] at h
      exact isProgram_of_readAll (Cursor.standsAt_ofSource hc) h
    | error cause =>
      rw [Program.ofSource, hc] at h
      cases h
  · rintro ⟨ts, line, hs, hh, hp⟩
    obtain ⟨c, hc⟩ := ofSource_of_completes hs
    rw [ofSource_eq_readAll hc]
    exact readAll_of_isProgram (Cursor.standsAt_ofSource hc) hs hh hp

/-- A source text is a program exactly if all its tokens can be scanned, they form a sentence of the
grammar, and all their numbers can be held. The tree that is read is then the one and only tree for
which the tokens are derived. -/
theorem ofSource_eq_ok_iff_derived (source : String) :
    ((∃ p, Program.ofSource source = .ok p) ↔
      ∃ ts line, (Scanner.ofSource source).tokenize.1 = .ok (ts ++ [.finish line]) ∧
        IsSentence ts ∧ ∀ t ∈ ts, t.InRange) ∧
    ∀ p, Program.ofSource source = .ok p ↔
      ∃ ts line, (Scanner.ofSource source).tokenize.1 = .ok (ts ++ [.finish line]) ∧
        (∀ t ∈ ts, t.InRange) ∧ IsProgram Token.Writes ts p ∧
        ∀ q, IsProgram Token.Writes ts q → q = p := by
  have completes : ∀ {ts : List Token} {line : Nat},
      (Scanner.ofSource source).tokenize.1 = .ok (ts ++ [.finish line]) ↔
        (Scanner.ofSource source).Completes ts line := by
    intro ts line
    rw [Scanner.tokenize_eq_ok_iff]
    constructor
    · rintro ⟨us, line', h, he⟩
      obtain ⟨rfl, hl⟩ := List.append_inj' he rfl
      have : line = line' := by simpa [Token.finish] using hl
      exact this ▸ h
    · intro h
      exact ⟨ts, line, h, rfl⟩
  refine ⟨⟨?_, ?_⟩, fun p => ⟨?_, ?_⟩⟩
  · rintro ⟨p, hp⟩
    obtain ⟨ts, line, hs, hh, h⟩ := ofSource_eq_ok_iff_completes.1 hp
    exact ⟨ts, line, completes.2 hs, isSentence_iff.2 ⟨p, h⟩, held_iff.1 hh⟩
  · rintro ⟨ts, line, hs, h, hr⟩
    obtain ⟨p, hp⟩ := isSentence_iff.1 h
    exact ⟨p, ofSource_eq_ok_iff_completes.2 ⟨ts, line, completes.1 hs, held_iff.2 hr, hp⟩⟩
  · intro hp
    obtain ⟨ts, line, hs, hh, h⟩ := ofSource_eq_ok_iff_completes.1 hp
    refine ⟨ts, line, completes.2 hs, held_iff.1 hh, (isProgram_writes_iff hh).2 h, ?_⟩
    intro q hq
    have := ofSource_eq_ok_iff_completes.2 ⟨ts, line, hs, hh, (isProgram_writes_iff hh).1 hq⟩
    rw [hp] at this
    exact (Except.ok.inj this).symm
  · rintro ⟨ts, line, hs, hr, hp, -⟩
    have hh := held_iff.2 hr
    exact ofSource_eq_ok_iff_completes.2
      ⟨ts, line, completes.1 hs, hh, (isProgram_writes_iff hh).1 hp⟩

end PocketPascal.Grammar
