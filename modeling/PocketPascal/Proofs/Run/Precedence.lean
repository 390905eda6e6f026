import Mathlib.Order.Bounds.Basic
import PocketPascal.Proofs.Run.Phases
import PocketPascal.Proofs.Syntax.Verdict

/-!
# Which error comes first

A source text may have several things wrong with it: a token that does not fit the grammar, a number
that cannot be held, and a character that starts no token. One of them is reported. The main
statement compares their positions in the list of tokens that are handed out: a misfit wins over
every number that does not stand before it and over every error of the scanner; a number wins over
every misfit behind it, but not over an error of the scanner directly behind it.
-/

namespace PocketPascal

namespace Grammar

variable {ts us vs : List Token} {t : Token}

/-! ## Positions -/

/-- The positions at which the tokens up to there are not the beginning of a program with its end.
-/
def misfits (ts : List Token) : Set Nat := {k | k < ts.length ∧ IsBlocked (ts.take (k + 1))}

/-- The positions of numbers that cannot be held. -/
def excesses (ts : List Token) : Set Nat := {m | ∃ t, ts[m]? = some t ∧ ¬ t.InRange}

theorem le_of_mem_misfits {k : Nat} (h : IsViable us) (hk : k ∈ misfits (us ++ vs)) :
    us.length ≤ k := by
  by_contra hlt
  have htake : (us ++ vs).take (k + 1) = us.take (k + 1) := List.take_append_of_le_length (by omega)
  have hblocked := hk.2
  rw [htake] at hblocked
  exact h.not_isBlocked_take (k + 1) hblocked

theorem misfits_eq_empty_of_viable (h : IsViable us) : misfits us = ∅ := by
  rw [Set.eq_empty_iff_forall_notMem]
  intro k hk
  exact h.not_isBlocked_take (k + 1) hk.2

theorem misfits_eq_empty_of_sentence (h : IsSentence ts) (line : Nat) :
    misfits (ts ++ [.finish line]) = ∅ := by
  rw [Set.eq_empty_iff_forall_notMem]
  intro k hk
  exact hk.2 ts line h (List.take_prefix _ _)

theorem isLeast_misfits {cause : SyntaxError} (h : IsMisfit cause us t) :
    IsLeast (misfits (us ++ t :: vs)) us.length := by
  refine ⟨⟨by simp, ?_⟩, fun k hk => le_of_mem_misfits h.viable hk⟩
  have htake : (us ++ t :: vs).take (us.length + 1) = us ++ [t] := by
    rw [List.take_length_add_append]
    rfl
  rw [htake]
  exact h.blocked

theorem le_of_mem_excesses {m : Nat} (h : Held us) (hm : m ∈ excesses (us ++ vs)) :
    us.length ≤ m := by
  obtain ⟨t, ht, hexcess⟩ := hm
  by_contra hlt
  rw [List.getElem?_append_left (by omega)] at ht
  exact hexcess (h.inRange (List.mem_of_getElem? ht))

theorem inRange_finish (line : Nat) : (Token.finish line).InRange := by
  constructor <;> intro hk <;> cases hk

theorem excesses_eq_empty (h : Held ts) (line : Nat) : excesses (ts ++ [.finish line]) = ∅ := by
  rw [Set.eq_empty_iff_forall_notMem]
  rintro m ⟨t, ht, hexcess⟩
  rcases List.mem_append.1 (List.mem_of_getElem? ht) with hmem | hmem
  · exact hexcess (h.inRange hmem)
  · rw [List.mem_singleton.1 hmem] at hexcess
    exact hexcess (inRange_finish line)

theorem isLeast_excesses (h : Held us) (ht : ¬ t.InRange) :
    IsLeast (excesses (us ++ t :: vs)) us.length :=
  ⟨⟨t, by simp, ht⟩, fun _ hm => le_of_mem_excesses h hm⟩

/-! ## Competing errors -/

/-- How the errors among the tokens that were handed out, and the error `last` behind them, compare
with the result of reading them. -/
inductive Ranking (tokens : List Token) (last : Option LexicalError) :
    Except SyntaxError Program → Prop where
  /-- Nothing is wrong. -/
  | accepted {p : Program} (fits : misfits tokens = ∅) (held : excesses tokens = ∅)
      (ends : last = none) : Ranking tokens last (.ok p)
  /-- The first misfit is reported. No number before it is too large. -/
  | misfit {k : Nat} {t : Token} {cause : SyntaxError} (found : cause.misfit? = some t)
      (first : IsLeast (misfits tokens) k) (place : tokens[k]? = some t)
      (before : ∀ m ∈ excesses tokens, k ≤ m) : Ranking tokens last (.error cause)
  /-- The error of the scanner is reported. Only the number directly before it may be too large. -/
  | lexical {e : LexicalError} (fits : misfits tokens = ∅)
      (held : ∀ m ∈ excesses tokens, m + 1 = tokens.length) (ends : last = some e) :
      Ranking tokens last (.error (.lexical e))
  /-- The first number that is too large is reported. No misfit stands before it, but a token stands
  behind it. -/
  | literal {m : Nat} {t : Token} (first : IsLeast (excesses tokens) m)
      (place : tokens[m]? = some t) (before : ∀ k ∈ misfits tokens, m < k)
      (behind : m + 1 < tokens.length) :
      Ranking tokens last (.error (.literalTooLarge t.text t.line))

theorem Verdict.ranking {source : String} {result : Except SyntaxError Program}
    (h : Verdict source result) :
    Ranking (Scanner.ofSource source).handedOut.1 (Scanner.ofSource source).handedOut.2 result := by
  cases h with
  | @accepted ts line p completes held is =>
    rw [completes.handedOut]
    have hsentence : IsSentence ts := isSentence_iff.2 ⟨p, is⟩
    exact .accepted (misfits_eq_empty_of_sentence hsentence line) (excesses_eq_empty held line) rfl
  | @misfit us t _ _ cause yields next held is found =>
    obtain ⟨rest, hall⟩ := yields.handedOut_next next
    rw [hall]
    exact .misfit found (isLeast_misfits is) (by simp) fun m hm => le_of_mem_excesses held hm
  | @lexical us s e yields next held viable =>
    rw [yields.handedOut_error next]
    refine .lexical (misfits_eq_empty_of_viable viable) ?_ rfl
    rintro m ⟨t, ht, hexcess⟩
    have hlt : m < us.length := (List.getElem?_eq_some_iff.1 ht).1
    -- all tokens but the last one have been looked at
    have hne : us ≠ [] := by
      rintro rfl
      cases ht
    have hsplit : us.dropLast ++ [us.getLast hne] = us := List.dropLast_append_getLast hne
    have hmem : m ∈ excesses (us.dropLast ++ [us.getLast hne]) := by
      rw [hsplit]
      exact ⟨t, ht, hexcess⟩
    have hlast := le_of_mem_excesses held hmem
    rw [List.length_dropLast] at hlast
    show m + 1 = us.length
    omega
  | @literal us t t' s yields next held excess viable =>
    have hn : s.next = (.ok t', s.next.2) := Prod.ext next rfl
    obtain ⟨rest, hall⟩ := yields.handedOut_next hn
    rw [hall]
    have hbefore : ∀ k ∈ misfits (us ++ [t] ++ t' :: rest), us.length < k := by
      intro k hk
      have hle := le_of_mem_misfits viable hk
      rw [List.length_append, List.length_singleton] at hle
      omega
    rw [List.append_assoc, List.singleton_append] at hbefore ⊢
    exact .literal (isLeast_excesses held excess) (by simp) hbefore (by simp)

section

variable {tokens : List Token} {last : Option LexicalError} {result : Except SyntaxError Program}

theorem Ranking.of_misfit {k : Nat} (h : Ranking tokens last result)
    (hk : IsLeast (misfits tokens) k) (ht : tokens[k]? = some t)
    (hm : ∀ m ∈ excesses tokens, k ≤ m) :
    ∃ cause, result = .error cause ∧ cause.misfit? = some t := by
  cases h with
  | accepted fits _ _ => exact absurd hk.1 (fits ▸ Set.notMem_empty k)
  | @misfit k' t' cause found first place _ =>
    obtain rfl : k' = k := first.unique hk
    rw [place] at ht
    exact ⟨cause, rfl, found.trans ht⟩
  | lexical fits _ _ => exact absurd hk.1 (fits ▸ Set.notMem_empty k)
  | @literal m _ first _ before _ =>
    have hmk : m < k := before k hk.1
    have hkm : k ≤ m := hm m first.1
    omega

/-- The first number that is too large wins over every misfit behind it, but not over an error of
the scanner directly behind it. -/
theorem Ranking.of_excess {m : Nat} (h : Ranking tokens last result)
    (hm : IsLeast (excesses tokens) m) (ht : tokens[m]? = some t)
    (hk : ∀ k ∈ misfits tokens, m < k) :
    (∀ e, m + 1 = tokens.length → last = some e → result = .error (.lexical e)) ∧
    ((m + 1 = tokens.length → last = none) → result = .error (.literalTooLarge t.text t.line)) := by
  cases h with
  | accepted _ held _ => exact absurd hm.1 (held ▸ Set.notMem_empty m)
  | @misfit k _ _ _ first _ before =>
    have hkm : k ≤ m := before m hm.1
    have hmk : m < k := hk k first.1
    omega
  | @lexical e _ held ends =>
    refine ⟨fun e' _ he' => ?_, fun hnone => ?_⟩
    · rw [ends] at he'
      cases he'
      rfl
    · rw [hnone (held m hm.1)] at ends
      cases ends
  | @literal m' t' first place _ behind =>
    obtain rfl : m' = m := first.unique hm
    obtain rfl : t' = t := Option.some.inj (place.symm.trans ht)
    exact ⟨fun e hend _ => absurd hend (Nat.ne_of_lt behind), fun _ => rfl⟩

theorem Ranking.of_neither (h : Ranking tokens last result) (hk : misfits tokens = ∅)
    (hm : excesses tokens = ∅) :
    (∀ e, last = some e → result = .error (.lexical e)) ∧ (last = none → ∃ p, result = .ok p) := by
  cases h with
  | @accepted p _ _ ends =>
    refine ⟨fun e he => ?_, fun _ => ⟨p, rfl⟩⟩
    rw [ends] at he
    cases he
  | @misfit k _ _ _ first _ _ => exact absurd first.1 (hk ▸ Set.notMem_empty k)
  | @lexical e _ _ ends =>
    refine ⟨fun e' he' => ?_, fun hnone => ?_⟩
    · rw [ends] at he'
      cases he'
      rfl
    · rw [hnone] at ends
      cases ends
  | @literal m _ first _ _ _ => exact absurd first.1 (hm ▸ Set.notMem_empty m)

end

end Grammar

namespace Run

open Grammar

/-- Which of several errors in a source text is reported. `tokens` are what the scanner hands out up
to the end of the input, or up to its first error, which is `last`; positions are counted from zero.

* The first misfit is reported if no number before it is too large, whatever follows it.
* The first number that is too large is reported if no token up to it is a misfit, whatever follows
  it; only an error of the scanner directly behind it is reported in its place.
* If there is neither, the error of the scanner is reported, the same one as for the list of all
  tokens, and without such an error the program is accepted. -/
theorem first_error_wins (source : String) (tokens : List Token) (last : Option LexicalError)
    (handed : (Scanner.ofSource source).handedOut = (tokens, last)) :
    (∀ k t, IsLeast (misfits tokens) k → tokens[k]? = some t → (∀ m ∈ excesses tokens, k ≤ m) →
      ∃ cause, (parse source).result = .error (.syntactic cause) ∧ cause.misfit? = some t) ∧
    (∀ m t, IsLeast (excesses tokens) m → tokens[m]? = some t → (∀ k ∈ misfits tokens, m < k) →
      (∀ e, m + 1 = tokens.length → last = some e → (parse source).result = .error (.lexical e)) ∧
      ((m + 1 = tokens.length → last = none) →
        (parse source).result = .error (.syntactic (.literalTooLarge t.text t.line)))) ∧
    (misfits tokens = ∅ → excesses tokens = ∅ →
      (∀ e, last = some e → (parse source).result = .error (.lexical e) ∧
        (Scanner.ofSource source).tokenize.1 = .error e) ∧
      (last = none → ∃ p, (parse source).result = .ok p)) := by
  have ranking := (verdict_ofSource source).ranking
  rw [handed] at ranking
  rw [result_parse]
  refine ⟨fun k t hk ht hm => ?_, fun m t hm ht hk => ?_, fun hk hm => ?_⟩
  · obtain ⟨cause, hresult, hfound⟩ := ranking.of_misfit hk ht hm
    rw [hresult]
    refine ⟨cause, ?_, hfound⟩
    cases cause with
    | lexical => cases hfound
    | _ => rfl
  · obtain ⟨hlast, hotherwise⟩ := ranking.of_excess hm ht hk
    constructor
    · intro e hend he
      rw [hlast e hend he]
      rfl
    · intro hnone
      rw [hotherwise hnone]
      rfl
  · obtain ⟨hlast, hnone⟩ := ranking.of_neither hk hm
    constructor
    · intro e he
      rw [hlast e he]
      exact ⟨rfl, Scanner.tokenize_of_handedOut (handed ▸ he)⟩
    · intro hend
      obtain ⟨p, hresult⟩ := hnone hend
      rw [hresult]
      exact ⟨p, rfl⟩

/-- A program whose only value is missing, and behind it a number that is too large and a character
that starts no token. -/
def missingValue : String := "PROGRAM p; BEGIN a := END 9223372036854775808 ?"

/-- A program with a number that is too large, and behind it a misfit and a character that starts no
token. -/
def largeNumber : String := "PROGRAM p; BEGIN a := 9223372036854775808 BEGIN ?"

/-- A program with a number that is too large, and directly behind it a character that starts no
token. -/
def largeNumberAtError : String := "PROGRAM p; BEGIN a := 9223372036854775808?"

/-- The misfit is reported, the number, and the error of the scanner. -/
theorem first_error_wins_samples :
    (∃ k cause, IsLeast (misfits (Scanner.ofSource missingValue).handedOut.1) k ∧
      (parse missingValue).result = .error (.syntactic cause) ∧
      cause.misfit? = some ⟨.keyword .finish, some "END", 1⟩) ∧
    (∃ m, IsLeast (excesses (Scanner.ofSource largeNumber).handedOut.1) m ∧
      (parse largeNumber).result =
        .error (.syntactic (.literalTooLarge "9223372036854775808" 1))) ∧
    (IsLeast (excesses (Scanner.ofSource largeNumberAtError).handedOut.1) 6 ∧
      (parse largeNumberAtError).result = .error (.lexical ⟨'?', "6854775808?", 1⟩)) := by
  have ranking : ∀ {source : String} {cause : SyntaxError},
      (Program.ofSource source).map (fun _ => ()) = .error cause →
      Ranking (Scanner.ofSource source).handedOut.1 (Scanner.ofSource source).handedOut.2
        (.error cause) := by
    intro source cause h
    rw [← eq_error_of_map h]
    exact (verdict_ofSource source).ranking
  refine ⟨?_, ?_, ?_⟩
  · have h : (Program.ofSource missingValue).map (fun _ => ()) =
        .error (.unexpected .name ⟨⟨.keyword .finish, some "END", 1⟩, 1⟩
          [⟨.name, some "p", 1⟩, ⟨.mark .semicolon, some ";", 1⟩,
            ⟨.keyword .begin, some "BEGIN", 1⟩, ⟨.name, some "a", 1⟩,
            ⟨.mark .assign, some ":=", 1⟩]) := by decide +kernel
    cases ranking h with
    | @misfit k t _ found first place before =>
      cases found
      obtain ⟨cause, hresult, hfound⟩ :=
        (first_error_wins missingValue _ _ rfl).1 k _ first place before
      exact ⟨k, cause, first, hresult, hfound⟩
  · have h : (Program.ofSource largeNumber).map (fun _ => ()) =
        .error (.literalTooLarge "9223372036854775808" 1) := by decide +kernel
    have hr := ranking h
    generalize hcause : SyntaxError.literalTooLarge "9223372036854775808" 1 = cause at hr
    cases hr with
    | misfit found _ _ _ =>
      subst hcause
      cases found
    | lexical => cases hcause
    | @literal m t first place before behind =>
      have hm := (first_error_wins largeNumber _ _ rfl).2.1 m t first place before
      refine ⟨m, first, ?_⟩
      exact hm.2 fun hend => absurd hend (Nat.ne_of_lt behind)
  · have h : (Program.ofSource largeNumberAtError).map (fun _ => ()) =
        .error (.lexical ⟨'?', "6854775808?", 1⟩) := by decide +kernel
    have hplace : (Scanner.ofSource largeNumberAtError).handedOut.1[6]? =
        some ⟨.integer, some "9223372036854775808", 1⟩ := by decide +kernel
    have hexcess : ¬ Token.InRange ⟨.integer, some "9223372036854775808", 1⟩ := by
      intro hrange
      exact absurd (hrange.1 rfl) (by decide +kernel)
    cases ranking h with
    | misfit found _ _ _ => cases found
    | lexical fits held ends =>
      have hend := held 6 ⟨_, hplace, hexcess⟩
      have first : IsLeast (excesses (Scanner.ofSource largeNumberAtError).handedOut.1) 6 := by
        refine ⟨⟨_, hplace, hexcess⟩, fun m hm => ?_⟩
        have := held m hm
        omega
      have hm := (first_error_wins largeNumberAtError _ _ rfl).2.1 6 _ first hplace
        (fun k hk => absurd hk (fits ▸ Set.notMem_empty k))
      exact ⟨first, hm.1 _ hend ends⟩

end Run

end PocketPascal
