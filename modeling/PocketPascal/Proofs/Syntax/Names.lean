import PocketPascal.Proofs.Evaluation.Assignments
import PocketPascal.Proofs.Syntax.Acceptance
import PocketPascal.Proofs.Token.Segmentation

/-!
# The names that a body uses

Every name in the assignments of a program is that of a token, and the scanner takes no reserved
word for a name. So a program that was read from a text uses no reserved word as a variable; the
words for types, which every scope knows, are among them. What it does use are letters followed by
letters and digits.
-/

namespace PocketPascal

/-- The names in an expression, from left to right. -/
def Expr.names : Expr → List Name
  | .literal _ _ => []
  | .variable name => [name]
  | .unary _ operand _ => operand.names
  | .binary _ left right _ => left.names ++ right.names

/-- The names that an assignment uses: its target, and those of its expression. -/
def Assignment.names (a : Assignment) : List Name := a.target :: a.value.names

namespace Grammar

/-- The name stands among the tokens. -/
def Written (ts : List Token) (n : Name) : Prop := ∃ t ∈ ts, t.kind = .name ∧ n = ⟨t.text, t.line⟩

variable {valued : Token → Value → Prop}

theorem Written.mono {us ts : List Token} {n : Name} (h : Written us n) (hs : us ⊆ ts) :
    Written ts n := by
  obtain ⟨t, ht, hn⟩ := h
  exact ⟨t, hs ht, hn⟩

theorem written_head {t : Token} {ts : List Token} (ht : t.kind = .name) :
    Written (t :: ts) ⟨t.text, t.line⟩ :=
  ⟨t, List.mem_cons_self, ht, rfl⟩

mutual

theorem IsExpr.written : ∀ {ts : List Token} {e : Expr}, IsExpr valued ts e →
    ∀ n ∈ e.names, Written ts n
  | _, _, .term h, n, hn => h.written n hn
  | _, _, .sum hl _ hr, n, hn => by
    rcases List.mem_append.1 hn with hn | hn
    · exact (hl.written n hn).mono (by simp)
    · exact (hr.written n hn).mono (by simp)

theorem IsTerm.written : ∀ {ts : List Token} {e : Expr}, IsTerm valued ts e →
    ∀ n ∈ e.names, Written ts n
  | _, _, .factor h, n, hn => h.written n hn
  | _, _, .product hl _ hr, n, hn => by
    rcases List.mem_append.1 hn with hn | hn
    · exact (hl.written n hn).mono (by simp)
    · exact (hr.written n hn).mono (by simp)

theorem IsFactor.written : ∀ {ts : List Token} {e : Expr}, IsFactor valued ts e →
    ∀ n ∈ e.names, Written ts n
  | _, _, .literal _ _, n, hn => absurd hn (by simp [Expr.names])
  | _, _, .variable ht, n, hn => by
    rw [List.mem_singleton.1 hn]
    exact written_head ht
  | _, _, .sign _ h, n, hn => (h.written n hn).mono (List.subset_cons_self _ _)
  | _, _, .parens _ h _, n, hn => (h.written n hn).mono (by simp)

end

/-- The tokens are written for an assignment somewhere among others. -/
def Assigns (valued : Token → Value → Prop) (ts : List Token) (a : Assignment) : Prop :=
  ∃ us, us ⊆ ts ∧ IsExpr valued us a.value ∧ Written ts a.target

theorem Assigns.mono {us ts : List Token} {a : Assignment} (h : Assigns valued us a)
    (hs : us ⊆ ts) : Assigns valued ts a := by
  obtain ⟨vs, hv, he, ht⟩ := h
  exact ⟨vs, List.Subset.trans hv hs, he, ht.mono hs⟩

mutual

theorem IsStatement.assigns : ∀ {ts : List Token} {s : Statement}, IsStatement valued ts s →
    ∀ a ∈ s.assignments, Assigns valued ts a
  | _, _, .empty, a, ha => absurd ha (by simp [Statement.assignments])
  | _, _, .assign ht _ h, a, ha => by
    rw [Statement.assignments, List.mem_singleton] at ha
    subst ha
    exact ⟨_, by simp, h, written_head ht⟩
  | _, _, .compound h, a, ha => by
    rw [Statement.assignments] at ha
    exact h.assigns a ha

theorem IsStatements.assigns : ∀ {ts : List Token} {body : List Statement},
    IsStatements valued ts body →
    ∀ a ∈ Statement.assignmentsOfList body, Assigns valued ts a
  | _, _, .last h, a, ha => by
    rw [Statement.assignmentsOfList, Statement.assignmentsOfList, List.append_nil] at ha
    exact h.assigns a ha
  | _, _, .more h _ hr, a, ha => by
    rw [Statement.assignmentsOfList] at ha
    rcases List.mem_append.1 ha with ha | ha
    · exact (h.assigns a ha).mono (by simp)
    · exact (hr.assigns a ha).mono (by simp)

theorem IsCompound.assigns : ∀ {ts : List Token} {body : List Statement},
    IsCompound valued ts body →
    ∀ a ∈ Statement.assignmentsOfList body, Assigns valued ts a
  | _, _, .block _ h _, a, ha => (h.assigns a ha).mono (by simp)

end

theorem IsCompound.written {ts : List Token} {body : List Statement}
    (h : IsCompound valued ts body) :
    ∀ a ∈ Statement.assignmentsOfList body, ∀ n ∈ a.names, Written ts n := by
  intro a ha n hn
  obtain ⟨us, hs, he, ht⟩ := h.assigns a ha
  rcases List.mem_cons.1 hn with rfl | hn
  · exact ht
  · exact (he.written n hn).mono hs

/-- The names that a program uses outside of its procedures stand among its tokens. -/
theorem IsProgram.written {ts : List Token} {p : Program} (h : IsProgram valued ts p) :
    ∀ a ∈ p.assignments, ∀ n ∈ a.names, Written ts n := by
  cases h with
  | parts ho hn hs hb hp =>
    cases hb with
    | parts hv hps hbody =>
      intro a ha n hn'
      exact (hbody.written a ha n hn').mono fun t ht => by simp [ht]

end Grammar

/-! ## Names and reserved words -/

/-- Every scanned token was the longest one where it was taken. -/
theorem Scans.longest {line line' : Nat} {text rest : List Char} {ts : List Token}
    (h : Scans line text ts line' rest) :
    ∀ t ∈ ts, ∃ following, IsLongest t.kind t.text.toList following := by
  induction h with
  | here => simp
  | filler _ _ ih => exact ih
  | @token line line' kind piece text rest ts hp _ ih =>
    intro t ht
    rcases List.mem_cons.1 ht with rfl | ht
    · refine ⟨text, ?_⟩
      show IsLongest kind (String.ofList piece).toList text
      rw [String.toList_ofList]
      exact hp
    · exact ih t ht

section

variable {line line' : Nat} {text rest : List Char} {ts : List Token}

/-- A token that was scanned as a name is not spelled like a reserved word. -/
theorem Scans.not_reserved (h : Scans line text ts line' rest) :
    ∀ t ∈ ts, t.kind = .name → ∀ word : Keyword, t.text ≠ word.text := by
  intro t ht hk word hword
  obtain ⟨following, hlongest⟩ := h.longest t ht
  have hkeyword : t.kind = .keyword word := hlongest.reserved word (by rw [hword])
  rw [hkeyword] at hk
  cases hk

/-- A token that was scanned as a reserved word is spelled like it. -/
theorem Scans.spelled (h : Scans line text ts line' rest) :
    ∀ t ∈ ts, ∀ word : Keyword, t.kind = .keyword word → t.text = word.text := by
  intro t ht word hk
  obtain ⟨following, hlongest⟩ := h.longest t ht
  have hfits : (Kind.keyword word).Fits t.text.toList := hk ▸ hlongest.fits
  exact String.toList_inj.1 hfits

/-- A token that was scanned as a name is a letter and then letters and digits. -/
theorem Scans.isWord (h : Scans line text ts line' rest) :
    ∀ t ∈ ts, t.kind = .name → IsWord t.text.toList := by
  intro t ht hk
  obtain ⟨following, hlongest⟩ := h.longest t ht
  have hfits : Kind.name.Fits t.text.toList := hk ▸ hlongest.fits
  exact hfits

end

/-- A program that was read uses no reserved word as a variable. -/
theorem Program.not_reserved {source : String} {p : Program} (h : Program.ofSource source = .ok p) :
    ∀ a ∈ p.assignments, ∀ n ∈ a.names, ∀ word : Keyword, n.text ≠ word.text := by
  intro a ha n hn
  obtain ⟨ts, line, hs, -, hp⟩ := Grammar.ofSource_eq_ok_iff_completes.1 h
  obtain ⟨t, ht, hk, rfl⟩ := hp.written a ha n hn
  exact hs.scans.not_reserved t ht hk

/-- The variables of a program that was read are letters followed by letters and digits. -/
theorem Program.isWord {source : String} {p : Program} (h : Program.ofSource source = .ok p) :
    ∀ a ∈ p.assignments, ∀ n ∈ a.names, IsWord n.text.toList := by
  intro a ha n hn
  obtain ⟨ts, line, hs, -, hp⟩ := Grammar.ofSource_eq_ok_iff_completes.1 h
  obtain ⟨t, ht, hk, rfl⟩ := hp.written a ha n hn
  exact hs.scans.isWord t ht hk

end PocketPascal
