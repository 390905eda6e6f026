import PocketPascal.Proofs.Lines.Phases
import PocketPascal.Proofs.Lines.Reading
import PocketPascal.Proofs.Token.Layout

/-!
# Layout and runs

If all tokens of a source text can be scanned, then the result of a run depends on them alone. Their
lines come back in the errors, and decide nothing: the run can be made with the numbers of the
tokens in place of their lines, and if it fails, the lines are put into the error afterwards. Two
texts whose tokens differ in their lines only therefore have the same result, or errors that differ
in the lines of the tokens only. This is so for a text and the same text with more layout in it.
-/

namespace PocketPascal

/-- The tokens with their numbers, counted from zero, in place of their lines. -/
def Token.numbered (ts : List Token) : List Token := ts.mapIdx fun i t => t.relocate fun _ => i

/-- The line of the token with the given number. -/
def Token.lineAt (ts : List Token) (i : Nat) : Nat := ts[i]?.elim 0 Token.line

/-- The numbers stand for the lines. -/
theorem Token.relocate_numbered (ts more : List Token) :
    (numbered ts).map (relocate (lineAt (ts ++ more))) = ts := by
  refine List.ext_getElem (by simp [numbered]) fun i h h' => ?_
  have hline : lineAt (ts ++ more) i = ts[i].line := by
    rw [lineAt, List.getElem?_append_left h', List.getElem?_eq_getElem h']
    rfl
  rw [List.getElem_map]
  simp only [numbered, List.getElem_mapIdx]
  show { ts[i] with line := lineAt (ts ++ more) i } = ts[i]
  rw [hline]

/-- The numbers do not depend on the lines. -/
theorem Token.numbered_relocate (us vs : List Token) (f : Nat → Nat) :
    numbered (us ++ vs.map (relocate f)) = numbered (us ++ vs) := by
  refine List.ext_getElem (by simp [numbered]) fun i h h' => ?_
  simp only [numbered, List.getElem_mapIdx]
  by_cases hi : i < us.length
  · rw [List.getElem_append_left hi, List.getElem_append_left hi]
  · rw [List.getElem_append_right (by omega), List.getElem_append_right (by omega),
      List.getElem_map]
    rfl

namespace Run

/-- The result of a run on tokens, with their numbers in place of their lines. -/
def ofTokens (options : Options) (ts : List Token) : Except Error Globals :=
  ((Program.ofFeed ⟨(Token.numbered ts).map .ok, ts.length⟩).mapError .ofSyntax).bind
    (Program.result options)

/-- A run on a text whose tokens are complete is the run on its tokens, with their lines in the
error. -/
theorem result_of_completes (options : Options) {source : String} {ts : List Token} {line : Nat}
    (h : (Scanner.ofSource source).Completes ts line) :
    (ofSource options source).result =
      (ofTokens options ts).mapError (Error.relocate (Token.lineAt (ts ++ [.finish line]))) := by
  have hfeed : Feed.ofSource source =
      Feed.relocate (Token.lineAt (ts ++ [.finish line]))
        ⟨(Token.numbered ts).map .ok, ts.length⟩ := by
    rw [Feed.ofSource, Feed.ofScanner_of_completes h, Feed.relocate]
    congr 1
    · conv_lhs => rw [← Token.relocate_numbered ts [.finish line]]
      rw [List.map_map, List.map_map]
      rfl
    · simp [Token.lineAt, Token.finish]
  have hread : Program.ofSource source = Program.ofFeed (Feed.ofSource source) := rfl
  rw [result_ofSource, hread, hfeed, Program.ofFeed_relocate, ofTokens]
  cases Program.ofFeed ⟨(Token.numbered ts).map .ok, ts.length⟩ with
  | error cause =>
    show Except.error (Error.ofSyntax (cause.relocate _)) = Except.error _
    rw [Error.ofSyntax_relocate]
  | ok p => exact Program.result_relocate options p

/-- Layout changes no meaning. In a text all of whose tokens can be scanned, there is a place
directly behind each token; and if another token follows, then any layout may be inserted there. The
tokens of the new text are the same, those behind the place as many lines further below as the
layout has line breaks. A run on it has the same result under all options; or both runs fail with
the same error but for its lines, and these are in each case those of the same tokens. -/
theorem result_of_insertion {source : String} {us vs : List Token} {line : Nat}
    (h : (Scanner.ofSource source).tokenize.1 = .ok (us ++ vs ++ [.finish line])) (hus : us ≠ [])
    (hvs : vs ≠ []) :
    (∃ left right, source.toList = left ++ right ∧ EndsBehind source us left) ∧
    ∀ left right gap, source.toList = left ++ right → EndsBehind source us left → IsLayout gap →
      let n := gap.count '\n'
      let inserted := String.ofList (left ++ gap ++ right)
      let vs' := vs.map fun t => { t with line := t.line + n }
      (Scanner.ofSource inserted).tokenize.1 = .ok (us ++ vs' ++ [.finish (line + n)]) ∧
      ∀ options, ∃ outcome : Except Error Globals,
        (ofSource options source).result =
          outcome.mapError (Error.relocate (Token.lineAt (us ++ vs ++ [.finish line]))) ∧
        (ofSource options inserted).result =
          outcome.mapError (Error.relocate (Token.lineAt (us ++ vs' ++ [.finish (line + n)]))) := by
  have hc := Scanner.tokenize_eq_ok_finish_iff.1 h
  constructor
  · obtain ⟨s, hy, -⟩ := hc
    obtain ⟨s₁, hy₁, -⟩ := hy.of_append
    exact hy₁.exists_endsBehind hus
  · intro left right gap hsource hplace hgap n inserted vs'
    obtain rfl : source = String.ofList (left ++ right) := by rw [← hsource, String.ofList_toList]
    have hinserted : (Scanner.ofSource inserted).Completes (us ++ vs') (line + n) :=
      hc.insert hplace hus hvs hgap
    refine ⟨Scanner.tokenize_eq_ok_finish_iff.2 hinserted, fun options => ?_⟩
    refine ⟨ofTokens options (us ++ vs), result_of_completes options hc, ?_⟩
    have hnumbered : ofTokens options (us ++ vs') = ofTokens options (us ++ vs) := by
      have hnumbers : Token.numbered (us ++ vs') = Token.numbered (us ++ vs) :=
        Token.numbered_relocate us vs (· + n)
      have hlength : (us ++ vs').length = (us ++ vs).length := by
        rw [List.length_append, List.length_map, List.length_append]
      rw [ofTokens, ofTokens, hnumbers, hlength]
    rw [result_of_completes options hinserted, hnumbered]

/-- A comment with a line break comes between the two words of an unfinished program. The end of the
input, at which the run fails, is on the second line then, and so is the second word; the first word
stays where it is. -/
theorem result_of_insertion_comment :
    (ofSource {} "PROGRAM p").result =
      .error (.syntactic (.unexpected (.mark .semicolon) ⟨.finish 1, 1⟩
        [⟨.keyword .program, some "PROGRAM", 1⟩, ⟨.name, some "p", 1⟩])) ∧
    (Scanner.ofSource "PROGRAM\x7b a\n\x7d p").tokenize.1 =
      .ok [⟨.keyword .program, some "PROGRAM", 1⟩, ⟨.name, some "p", 2⟩, .finish 2] ∧
    ∀ options, ∃ outcome : Except Error Globals,
      (ofSource options "PROGRAM p").result =
        outcome.mapError (Error.relocate (Token.lineAt
          [⟨.keyword .program, some "PROGRAM", 1⟩, ⟨.name, some "p", 1⟩, .finish 1])) ∧
      (ofSource options "PROGRAM\x7b a\n\x7d p").result =
        outcome.mapError (Error.relocate (Token.lineAt
          [⟨.keyword .program, some "PROGRAM", 1⟩, ⟨.name, some "p", 2⟩, .finish 2])) := by
  have hresult : (ofSource {} "PROGRAM p").result.map (fun _ => ()) =
      .error (.syntactic (.unexpected (.mark .semicolon) ⟨.finish 1, 1⟩
        [⟨.keyword .program, some "PROGRAM", 1⟩, ⟨.name, some "p", 1⟩])) := by decide +kernel
  have htokens : (Scanner.ofSource "PROGRAM p").tokenize.1 =
      .ok ([⟨.keyword .program, some "PROGRAM", 1⟩] ++ [⟨.name, some "p", 1⟩] ++ [.finish 1]) := by
    decide +kernel
  have hfirst : (Scanner.ofSource "PROGRAM p").next =
      (.ok ⟨.keyword .program, some "PROGRAM", 1⟩, ⟨"MARGORP".toList, " p".toList, 1⟩) := by
    decide +kernel
  have hplace : EndsBehind "PROGRAM p" [⟨.keyword .program, some "PROGRAM", 1⟩] "PROGRAM".toList :=
    ⟨_, .more hfirst (by decide) (.none _), by decide +kernel⟩
  have hgap : IsLayout "\x7b a\n\x7d".toList := by
    have hcomment : IsComment "\x7b a\n\x7d".toList := ⟨" a\n".toList, rfl, by decide⟩
    exact .more (.inr hcomment) .none
  refine ⟨?_, (result_of_insertion htokens (by simp) (by simp)).2 "PROGRAM".toList " p".toList
    "\x7b a\n\x7d".toList rfl hplace hgap⟩
  cases hr : (ofSource {} "PROGRAM p").result with
  | ok globals =>
    rw [hr] at hresult
    cases hresult
  | error cause =>
    rw [hr] at hresult
    cases hresult
    rfl

end Run

end PocketPascal
