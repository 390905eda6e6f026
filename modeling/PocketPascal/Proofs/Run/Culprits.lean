import PocketPascal.Proofs.Run.Guarantees
import PocketPascal.Proofs.Run.Precedence
import PocketPascal.Proofs.Scope.Builtins

/-!
# What an error points at

Every error names a line, and what it complains about stands on this line of the source text: a
character, or a token that the scanner hands out. An error of reading is about a token that was
read; an error of the analysis is about an action, and one of the evaluation about a name or an
operator of an expression, and what these ask about stands among the tokens.
-/

namespace PocketPascal

open Grammar

/-- What the error is about stands in the text, or among the tokens that were handed out for it, on
the line of the error:

* a character that starts no token;
* a token that does not fit, or a number that is too large;
* a name that is used and unknown, or without a value;
* a name that is declared once more, in a section of variables, in a list of parameters, or behind
  the word that opens a procedure, on whose line the error is then;
* an operator that can have the fault.

There is no error for an unknown type. -/
def Error.Blames (text : List Char) (tokens : List Token) : Error → Prop
  | .lexical e => Text.StandsOn text e.line [e.character]
  | .syntactic (.lexical _) => False
  | .syntactic (.unexpected _ found _) => found.token ∈ tokens ∧ found.line = found.token.line
  | .syntactic (.trailing found) => found.token ∈ tokens ∧ found.line = found.token.line
  | .syntactic (.noType found) => found.token ∈ tokens ∧ found.line = found.token.line
  | .syntactic (.literalTooLarge literal line) =>
      ∃ t ∈ tokens, (t.kind = .integer ∨ t.kind = .real) ∧ t.text = literal ∧ t.line = line
  | .scope (.unknownName name line) => Written tokens ⟨name, line⟩
  | .scope (.unknownType _ _) => False
  | .scope (.duplicateName name _ line) =>
      ∃ symbol, DeclaresOn tokens symbol line ∧ symbol.name = name
  | .runtime (.unassigned name line) => Written tokens ⟨name, line⟩
  | .runtime (.arithmetic fault line) => ∃ kind ∈ fault.kinds, OperatorWritten tokens (kind, line)

section

variable {text : List Char} {tokens : List Token}

theorem Grammar.Written.exists_token {n : Name} (h : Written tokens n) :
    ∃ t ∈ tokens, t.line = n.line := by
  obtain ⟨t, ht, -, rfl⟩ := h
  exact ⟨t, ht, rfl⟩

theorem Grammar.DeclaresOn.exists_token {symbol : Symbol} {line : Nat}
    (h : DeclaresOn tokens symbol line) : ∃ t ∈ tokens, t.line = line := by
  rcases h.written with ⟨b, -, rfl, hb⟩ | ⟨opening, hmem, _, -, _, -, -, rfl⟩
  · exact hb.1.exists_token
  · exact ⟨opening, hmem, rfl⟩

/-- What an error is about stands on its line. -/
theorem Error.Blames.standsOn {e : Error} (h : e.Blames text tokens)
    (ht : ∀ t ∈ tokens, Text.StandsOn text t.line t.text.toList) :
    ∃ piece, Text.StandsOn text e.line piece := by
  have htoken : (∃ t ∈ tokens, t.line = e.line) → ∃ piece, Text.StandsOn text e.line piece := by
    rintro ⟨t, hmem, hline⟩
    exact ⟨_, hline ▸ ht t hmem⟩
  match e, h with
  | .lexical _, h => exact ⟨_, h⟩
  | .syntactic (.unexpected _ found _), ⟨h, hline⟩ => exact htoken ⟨found.token, h, hline.symm⟩
  | .syntactic (.trailing found), ⟨h, hline⟩ => exact htoken ⟨found.token, h, hline.symm⟩
  | .syntactic (.noType found), ⟨h, hline⟩ => exact htoken ⟨found.token, h, hline.symm⟩
  | .syntactic (.literalTooLarge _ _), ⟨t, hmem, _, _, hline⟩ => exact htoken ⟨t, hmem, hline⟩
  | .scope (.unknownName name line), h => exact htoken (Written.exists_token h)
  | .scope (.duplicateName _ _ _), ⟨_, h, _⟩ => exact htoken h.exists_token
  | .runtime (.unassigned name line), h => exact htoken (Written.exists_token h)
  | .runtime (.arithmetic _ _), ⟨_, _, t, hmem, _, hline⟩ => exact htoken ⟨t, hmem, hline⟩

end

/-! ## Reading -/

theorem Token.isNumber_of_not_inRange {t : Token} (h : ¬ t.InRange) :
    t.kind = .integer ∨ t.kind = .real := by
  by_contra hkind
  obtain ⟨hinteger, hreal⟩ := not_or.1 hkind
  exact h ⟨fun hk => absurd hk hinteger, fun hk => absurd hk hreal⟩

/-- An error of reading is about a token that was handed out, or it is the error of the scanner. -/
theorem Run.blames_of_ofSource {source : String} {cause : SyntaxError}
    (h : Program.ofSource source = .error cause) :
    (Error.ofSyntax cause).Blames (Text.trim source.toList)
      (Scanner.ofSource source).handedOut.1 := by
  have verdict := verdict_ofSource source
  rw [h] at verdict
  cases verdict.ranking with
  | @misfit k t _ found first place before =>
    have hmem := List.mem_of_getElem? place
    cases cause with
    | lexical => cases found
    | literalTooLarge => cases found
    | unexpected | trailing | noType =>
      have hline := verdict.line_of_misfit? found
      cases found
      exact ⟨hmem, hline⟩
  | lexical fits held ends => exact (Scanner.handedOut_standsOn source).2 _ ends
  | @literal m t first place before behind =>
    obtain ⟨t', ht', hexcess⟩ := first.1
    obtain rfl : t = t' := Option.some.inj (place.symm.trans ht')
    exact ⟨t, List.mem_of_getElem? place, Token.isNumber_of_not_inRange hexcess, rfl, rfl⟩

/-! ## Analysis and evaluation -/

section

variable {text : List Char} {tokens : List Token} {p : Program}

/-- An action that is refused is about something that stands among the tokens. -/
theorem Analysis.blames_of_refused {policy : Policy} {arena : Arena} {a : Action}
    {cause : ScopeError} (hb : Backed tokens a) (hr : a.Refused policy arena cause)
    (htype : ∀ name line, cause ≠ .unknownType name line) :
    (Error.scope cause).Blames text tokens := by
  cases hr with
  | noType _ => exact absurd rfl (htype _ _)
  | repeated _ _ _ => exact ⟨_, hb, rfl⟩
  | unknown _ => exact hb

/-- An assignment that has no value is about something that stands among the tokens. -/
theorem Assignment.blames_of_run {globals globals' : Globals} {as : List Assignment}
    {cause : RuntimeError} (hn : ∀ a ∈ as, ∀ n ∈ a.names, Written tokens n)
    (ho : ∀ a ∈ as, ∀ x ∈ a.value.operators, OperatorWritten tokens x)
    (h : run globals as = (.error cause, globals')) : (Error.runtime cause).Blames text tokens := by
  obtain ⟨before, a, after, rfl, -, ha⟩ := exists_of_run_error h
  have hmem : a ∈ before ++ a :: after := List.mem_append_right _ List.mem_cons_self
  cases cause with
  | unassigned name line =>
    have hname := (Expr.missing_of_eval ha).1
    exact hn a hmem _ (List.mem_cons_of_mem _ hname)
  | arithmetic fault line =>
    obtain ⟨kind, hkind, hoperator⟩ := Expr.fault_of_eval ha
    exact ⟨kind, hkind, ho a hmem _ hoperator⟩

end

namespace Run

/-- An error of a program that was read is about something that stands among its tokens. -/
theorem blames_of_result {source : String} {p : Program} {options : Options} {e : Error}
    (hp : Program.ofSource source = .ok p) (h : p.result options = .error e) :
    e.Blames (Text.trim source.toList) (Scanner.ofSource source).handedOut.1 := by
  obtain ⟨ts, line, hc, -, is⟩ := ofSource_eq_ok_iff_completes.1 hp
  -- all tokens of a program that was read are handed out, and behind them the end of the input
  have hpart : ts <:+: (Scanner.ofSource source).handedOut.1 := by
    rw [hc.handedOut]
    exact (List.prefix_append ts _).isInfix
  rcases Program.error_of_result h with ⟨cause, hcheck, rfl⟩ | ⟨cause, globals, -, hrun, rfl⟩
  · have hanalysis : ((Analyzer.create options.policy).analyze p).1 = .error cause := by
      rw [Analyzer.fst_analyze_create, hcheck]
    obtain ⟨before, a, after, hsplit, hrefused⟩ := Analyzer.exists_refused hanalysis
    have ha : a ∈ Analysis.programActions p := by simp [hsplit]
    exact Analysis.blames_of_refused ((is.backed a ha).mono hpart) hrefused
      (Analyzer.name_of_error hp hanalysis).1
  · exact Assignment.blames_of_run (fun a ha n hn => (is.written a ha n hn).mono hpart.subset)
      (fun a ha x hx => (is.operators a ha x hx).mono hpart.subset) hrun

/-- Every error points at what it is about. Whatever the settings, if a run ends with an error, the
line of the error is a line of the trimmed source text, and there stands what the error is about:
the tokens that the scanner hands out, up to the end of the input or up to its first error, stand in
the text on their lines, and it is one of them, or a character of the text. -/
theorem error_points_at_culprit (options : Options) (source : String) (e : Error)
    (h : (ofSource options source).result = .error e) :
    (1 ≤ e.line ∧ e.line ≤ 1 + (Text.trim source.toList).count '\n') ∧
    (∀ t ∈ (Scanner.ofSource source).handedOut.1,
      Text.StandsOn (Text.trim source.toList) t.line t.text.toList) ∧
    e.Blames (Text.trim source.toList) (Scanner.ofSource source).handedOut.1 := by
  have hplaces := (Scanner.handedOut_standsOn source).1
  have hblames : e.Blames (Text.trim source.toList) (Scanner.ofSource source).handedOut.1 := by
    rcases error_of_ofSource h with ⟨cause, hread, rfl⟩ | ⟨p, hp, hresult⟩
    · exact blames_of_ofSource hread
    · exact blames_of_result hp hresult
  obtain ⟨piece, hpiece⟩ := hblames.standsOn hplaces
  exact ⟨hpiece.bounds, hplaces, hblames⟩

/-- A program whose procedure has the name of a variable, on the line behind it. -/
def repeatedName : String := "PROGRAM p;\nVAR a : INTEGER;\nPROCEDURE a;\nBEGIN END;\nBEGIN END."

/-- A program that divides by zero, with the operator on a line of its own. -/
def zeroDivisor : String := "PROGRAM p;\nVAR a : INTEGER;\nBEGIN a := 1\nDIV\n0 END."

theorem error_points_at_culprit_samples :
    ((ofSource ⟨.reject, true⟩ repeatedName).result =
        .error (.scope (.duplicateName "a" "global" 3)) ∧
      ∃ symbol, DeclaresOn (Scanner.ofSource repeatedName).handedOut.1 symbol 3 ∧
        symbol.name = "a") ∧
    ((ofSource ⟨.overwrite, false⟩ zeroDivisor).result =
        .error (.runtime (.arithmetic .divisionByZero 4)) ∧
      4 ≤ 1 + (Text.trim zeroDivisor.toList).count '\n' ∧
      ∃ kind ∈ Fault.divisionByZero.kinds,
        OperatorWritten (Scanner.ofSource zeroDivisor).handedOut.1 (kind, 4)) := by
  have hrepeated : (ofSource ⟨.reject, true⟩ repeatedName).result =
      .error (.scope (.duplicateName "a" "global" 3)) := eq_error_of_map (by decide +kernel)
  have hdivision : (ofSource ⟨.overwrite, false⟩ zeroDivisor).result =
      .error (.runtime (.arithmetic .divisionByZero 4)) := eq_error_of_map (by decide +kernel)
  have hname := error_points_at_culprit _ _ _ hrepeated
  have hoperator := error_points_at_culprit _ _ _ hdivision
  exact ⟨⟨hrepeated, hname.2.2⟩, hdivision, hoperator.1.2, hoperator.2.2⟩

end Run

end PocketPascal
