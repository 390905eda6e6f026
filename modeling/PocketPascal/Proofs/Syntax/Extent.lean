import PocketPascal.Proofs.Syntax.Numbers
import PocketPascal.Proofs.Token.Attempts

/-!
# How far an expression reaches

An expression is read from wherever a cursor stands, and what follows it may be anything. The main
statement is that reading succeeds exactly if the tokens in front of the cursor begin with an
expression behind which there is no operator, and that this expression is the longest one that they
begin with. No longer one can begin like that: behind an expression an operator could always go on,
and nothing else can, so the reader of chains stops at the right token on both levels.
-/

namespace PocketPascal

/-! ## What stands in front of a cursor -/

namespace Cursor

/-- The tokens stand in front of the cursor: the current one, and those that the next calls of the
scanner return, none of which fails. -/
def Faces (c : Cursor) (s : Scanner) (ts : List Token) : Prop :=
  ∃ n, (∀ i < n, ∃ t, s.answer i = .ok t) ∧ ts = c.current :: s.returned n

variable {c c' : Cursor} {s : Scanner} {us vs ts : List Token} {t : Token}

/-- A cursor that has eaten tokens had them in front of it, and then the token that it is at now. -/
theorem Eats.faces (h : c.Eats us c') (hs : c.ahead = Feed.ofScanner s) :
    c.Faces s (us ++ [c'.current]) ∧ c'.ahead = Feed.ofScanner (s.afterCalls us.length) := by
  induction h generalizing s with
  | none c => exact ⟨⟨0, by simp, rfl⟩, hs⟩
  | @more c c' next ahead us hk hp _ ih =>
    rw [hs, Feed.pull_ofScanner] at hp
    have hnext : s.next.1 = .ok next := (Prod.ext_iff.1 hp).1
    obtain ⟨⟨n, hok, hus⟩, hahead⟩ := ih (Prod.ext_iff.1 hp).2.symm
    refine ⟨⟨n + 1, ?_, ?_⟩, ?_⟩
    · intro i hi
      cases i with
      | zero => exact ⟨next, hnext⟩
      | succ i =>
        rw [← Scanner.answer_next]
        exact hok i (Nat.lt_of_succ_lt_succ hi)
    · rw [Scanner.returned_next_of_ok hnext, List.cons_append, hus]
      rfl
    · rw [hahead, Scanner.afterCalls_next, List.length_cons]

/-- What stands in front of a cursor and what is ever returned begin alike. -/
theorem Faces.exists_append_returned (h : c.Faces s ts) (n : Nat) :
    ∃ more more', ts ++ more = c.current :: s.returned n ++ more' := by
  obtain ⟨m, -, rfl⟩ := h
  rcases Nat.le_total m n with hle | hle
  · obtain ⟨more, hmore⟩ := Scanner.returned_prefix (s := s) hle
    exact ⟨more, [], by rw [List.append_nil, List.cons_append, hmore]⟩
  · obtain ⟨more, hmore⟩ := Scanner.returned_prefix (s := s) hle
    exact ⟨[], more, by rw [List.append_nil, List.cons_append, hmore]⟩

theorem Faces.exists_append (h : c.Faces s us) (h' : c.Faces s vs) :
    ∃ more more', us ++ more = vs ++ more' := by
  obtain ⟨n, -, rfl⟩ := h'
  exact h.exists_append_returned n

/-- No call fails before the last of the tokens in front of a cursor has been returned. -/
theorem Faces.answer_ok (h : c.Faces s (us ++ [t])) {i : Nat} (hi : i < us.length) :
    ∃ u, s.answer i = .ok u := by
  obtain ⟨n, hok, hts⟩ := h
  have hlength := congrArg List.length hts
  rw [List.length_append, List.length_singleton, List.length_cons,
    Scanner.length_returned hok] at hlength
  exact hok i (by omega)

end Cursor

namespace Grammar

variable {valued : Token → Value → Prop} {c c' : Cursor} {s : Scanner} {ts us : List Token}
  {t : Token} {e : Expr}

/-! ## Where an expression ends -/

/-- Behind an expression any operator can go on, with a name after it. -/
theorem IsExpr.exists_longer (h : IsExpr valued ts e) (ht : t.kind ∈ operatorKinds) (name : Token)
    (hn : name.kind = .name) : ∃ e', IsExpr valued (ts ++ [t, name]) e' := by
  have operator : (∃ op, SumSign t.kind op) ∨ ∃ op, ProductSign t.kind op := by
    simp only [operatorKinds, productKinds, List.cons_append, List.nil_append, List.mem_cons,
      List.not_mem_nil, or_false] at ht
    rcases ht with ht | ht | ht | ht | ht <;> rw [ht]
    · exact .inl ⟨_, .plus⟩
    · exact .inl ⟨_, .minus⟩
    · exact .inr ⟨_, .times⟩
    · exact .inr ⟨_, .div⟩
    · exact .inr ⟨_, .slash⟩
  have operand : IsFactor valued [name] (.variable ⟨name.text, name.line⟩) := .variable hn
  rcases operator with ⟨op, hop⟩ | ⟨op, hop⟩
  · exact ⟨_, .sum h hop (.factor operand)⟩
  · -- a product takes the last term of the sum as its first operand
    cases h with
    | term h => exact ⟨_, .term (.product h hop operand)⟩
    | @sum ls rs _ _ left right hl ht' hr =>
      rw [List.append_assoc, List.cons_append]
      exact ⟨_, .sum hl ht' (.product hr hop operand)⟩

/-- An expression that is the only one where it stands is not followed by an operator. -/
theorem not_mem_operatorKinds_of_forces (h : IsExpr Numbered us e)
    (forces : Forces (IsExpr Numbered) operatorKinds (us ++ [t]) fun v b => v = us ∧ b = e) :
    t.kind ∉ operatorKinds := by
  intro ht
  obtain ⟨e', h'⟩ := h.exists_longer ht ⟨.name, none, 0⟩ rfl
  obtain ⟨hv, -⟩ := forces [⟨.name, none, 0⟩] _ [] e' h' clear_nil (by simp)
  simp at hv

/-! ## Reading an expression -/

/-- An expression that was read, and the token behind it, stand in front of the cursor. -/
theorem faces_of_read {lt : c'.remaining < c.remaining} (hs : c.ahead = Feed.ofScanner s)
    (h : Expr.read c = .done e c' lt) (heats : c.Eats us c') :
    c.Faces s (us ++ [c'.current]) ∧ IsExpr Numbered us e ∧ Held us ∧
      Forces (IsExpr Numbered) operatorKinds (us ++ [c'.current]) fun v b => v = us ∧ b = e := by
  have meets := meets_readExpr c
  rw [h] at meets
  cases meets with
  | done eats held is forces =>
    obtain rfl := heats.unique eats
    exact ⟨(eats.faces hs).1, is, held, forces⟩

/-- If the tokens in front of the cursor are an expression and a token that is no operator, this
expression is read. -/
theorem read_of_faces (hs : c.ahead = Feed.ofScanner s) (hf : c.Faces s (us ++ [t]))
    (hx : IsExpr Numbered us e) (hh : Held us) (ht : t.kind ∉ operatorKinds) :
    ∃ c' lt, Expr.read c = .done e c' lt ∧ c.Eats us c' ∧ c'.current = t := by
  have meets := meets_readExpr c
  -- What is forced where the reader has come to is true of the expression.
  have forced : ∀ {vs : List Token} {P : List Token → Expr → Prop}, c.Faces s vs →
      Forces (IsExpr Numbered) operatorKinds vs P → P us e := by
    intro vs P hvs hP
    obtain ⟨more, more', hm⟩ := hf.exists_append hvs
    exact hP more' us (t :: more) e hx (clear_cons.2 ht) (by simpa using hm)
  cases hr : Expr.read c with
  | done e' c' lt =>
    rw [hr] at meets
    cases meets with
    | done eats held is forces =>
      have hvs := (eats.faces hs).1
      obtain ⟨rfl, rfl⟩ := forced hvs forces
      obtain ⟨more, more', hm⟩ := hf.exists_append hvs
      have hbehind : t = c'.current ∧ more = more' := by simpa using hm
      exact ⟨c', lt, rfl, eats, hbehind.1.symm⟩
  | failed cause after =>
    rw [hr] at meets
    exfalso
    cases meets with
    | unexpected eats held opens forces => exact forced (eats.faces hs).1 forces
    | noType eats held opens forces => exact forced (eats.faces hs).1 forces
    | lexical eats held pull opens forces =>
      -- the call that fails comes before the one for the token behind the expression
      obtain ⟨hvs, hahead⟩ := eats.faces hs
      obtain ⟨u, hu⟩ := hf.answer_ok (forced hvs forces)
      rw [hahead] at pull
      rw [(Feed.pull_ofScanner_afterCalls pull).1] at hu
      cases hu
    | @literal vs u _ eats held number none opens forces =>
      -- the number that cannot be held is one of the expression
      obtain ⟨c₁, hbefore, rfl⟩ := eats.of_concat
      have hvs := (hbefore.faces hs).1
      have hlonger : vs.length < us.length := forced hvs forces
      obtain ⟨more, more', hm⟩ := hf.exists_append hvs
      have hplace : (us ++ t :: more)[vs.length]? = some c₁.current := by
        rw [List.append_cons, hm]
        simp
      rw [List.getElem?_append_left hlonger] at hplace
      have hvalue := hh _ (List.mem_of_getElem? hplace) number
      rw [none] at hvalue
      cases hvalue

/-- The longest expression that stands at the beginning of what the cursor has in front of it, with
all tokens that are ever returned, whatever the sizes of their numbers. -/
structure IsLongest (c : Cursor) (s : Scanner) (us : List Token) : Prop where
  /-- The tokens are those of an expression. -/
  is : ∃ e, IsExpr (fun _ _ => True) us e
  /-- The cursor has them in front of it. -/
  stands : ∃ n, us <+: c.current :: s.returned n
  /-- No other expression there is longer. -/
  longest : ∀ vs e n, IsExpr (fun _ _ => True) vs e → vs <+: c.current :: s.returned n → vs <+: us

theorem IsLongest.unique (h : IsLongest c s us) (h' : IsLongest c s ts) : us = ts := by
  obtain ⟨e, he⟩ := h.is
  obtain ⟨n, hn⟩ := h.stands
  obtain ⟨e', he'⟩ := h'.is
  obtain ⟨n', hn'⟩ := h'.stands
  have hle : us <+: ts := h'.longest us e n he hn
  exact hle.eq_of_length_le (h.longest ts e' n' he' hn').length_le

theorem isLongest_of_read {lt : c'.remaining < c.remaining} (hs : c.ahead = Feed.ofScanner s)
    (h : Expr.read c = .done e c' lt) (heats : c.Eats us c') : IsLongest c s us := by
  obtain ⟨hf, hx, -, forces⟩ := faces_of_read hs h heats
  refine ⟨?_, ?_, ?_⟩
  · obtain ⟨e', h', -⟩ := hx.revalue revalues_any
    exact ⟨e', h'⟩
  · obtain ⟨n, -, hn⟩ := hf
    exact ⟨n, hn ▸ List.prefix_append _ _⟩
  · intro vs e' n hv hstands
    obtain ⟨b, hb, -⟩ := hv.revalue revalues_number
    obtain ⟨more, more', hm⟩ := hf.exists_append_returned n
    have hus : us ++ [c'.current] <+: us ++ [c'.current] ++ more := List.prefix_append _ _
    have hvs : vs <+: us ++ [c'.current] ++ more := by
      rw [hm]
      exact hstands.trans (List.prefix_append _ _)
    rcases List.prefix_or_prefix_of_prefix hus hvs with ⟨rest, rfl⟩ | hshort
    · -- it would go on behind the token at which the reader has stopped
      obtain ⟨hv, -⟩ := forces rest _ [] b hb clear_nil (by simp)
      simp at hv
    · rcases List.prefix_concat_iff.1 hshort with rfl | hshort
      · obtain ⟨hv, -⟩ := forces [] _ [] b hb clear_nil (by simp)
        simp at hv
      · exact hshort

/-- The scanner of a source text behind attempts to eat. It was asked for the first token before
them. -/
def scannerBehind (source : String) (as : List Attempt) : Scanner :=
  (Scanner.ofSource source).afterCalls (1 + callsBy as)

/-- Wherever a cursor has come to in a source text, past whatever errors, reading an expression eats
the tokens `us`, stops at the token `t` and gives the tree `e` exactly if the tokens that are left
begin with `us` and `t`, without an error of the scanner among them, `us` is derived for `e` with all
its numbers in range, and `t` is no operator. What is eaten then is the longest expression that the
tokens that are left begin with, and the only one. -/
theorem extent_of_read {source : String} {c₀ c : Cursor} {as : List Attempt}
    (h₀ : Cursor.ofSource source = .ok c₀) (h : c₀.Leads as c) :
    (∀ us t e, (∃ c' lt, Expr.read c = .done e c' lt ∧ c.Eats us c' ∧ c'.current = t) ↔
      c.Faces (scannerBehind source as) (us ++ [t]) ∧ IsExpr Token.Writes us e ∧
        (∀ u ∈ us, u.InRange) ∧ t.kind ∉ operatorKinds) ∧
    ∀ us e c' lt, Expr.read c = .done e c' lt → c.Eats us c' →
      ∀ vs, IsLongest c (scannerBehind source as) vs ↔ vs = us := by
  have hs : c.ahead = Feed.ofScanner (scannerBehind source as) :=
    ((Balanced.start h₀).leads h).ahead
  refine ⟨fun us t e => ⟨?_, ?_⟩, fun us e c' lt hr heats vs => ⟨?_, ?_⟩⟩
  · rintro ⟨c', lt, hr, heats, rfl⟩
    obtain ⟨hf, hx, hh, forces⟩ := faces_of_read hs hr heats
    exact ⟨hf, (isExpr_writes_iff hh).2 hx, held_iff.1 hh, not_mem_operatorKinds_of_forces hx forces⟩
  · rintro ⟨hf, hx, hr, ht⟩
    have hh : Held us := held_iff.2 hr
    exact read_of_faces hs hf ((isExpr_writes_iff hh).1 hx) hh ht
  · intro hv
    exact hv.unique (isLongest_of_read hs hr heats)
  · rintro rfl
    exact isLongest_of_read hs hr heats

/-- A text in which nothing can be read at first, since no token begins with the question mark. -/
def interrupted : String := "a ? - b * 2 ; c"

/-- The tokens of the expression that is read from it after that. -/
def interruptedExpr : List Token :=
  [⟨.name, some "a", 1⟩, ⟨.mark .minus, some "-", 1⟩, ⟨.name, some "b", 1⟩,
    ⟨.mark .times, some "*", 1⟩, ⟨.integer, some "2", 1⟩]

theorem extent_of_read_interrupted :
    ∃ (a : Attempt) (cause : LexicalError), Cursor.ofSource interrupted = .ok a.cursor ∧
      a.outcome = .failed (.lexical cause) a.next ∧
      ∃ c' lt, Expr.read a.next = .done (.binary .sub (.variable ⟨"a", 1⟩)
          (.binary .mul (.variable ⟨"b", 1⟩) (.literal (.integer 2) 1) 1) 1) c' lt ∧
        a.next.Eats interruptedExpr c' ∧ c'.current = ⟨.mark .semicolon, some ";", 1⟩ ∧
        ∀ vs, IsLongest a.next (scannerBehind interrupted [a]) vs ↔ vs = interruptedExpr := by
  have hfirst : (Cursor.ofSource interrupted).map (fun c => (c.current, c.ahead.pull.1)) =
      .ok (⟨.name, some "a", 1⟩, .error ⟨'?', "a ? - b * 2 ", 1⟩) := by decide +kernel
  cases h₀ : Cursor.ofSource interrupted with
  | error cause =>
    rw [h₀] at hfirst
    cases hfirst
  | ok c₀ =>
    rw [h₀] at hfirst
    obtain ⟨hcurrent, hpull⟩ : c₀.current = ⟨.name, some "a", 1⟩ ∧
        c₀.ahead.pull.1 = .error ⟨'?', "a ? - b * 2 ", 1⟩ := Prod.ext_iff.1 (Except.ok.inj hfirst)
    let a : Attempt := ⟨c₀, .name, by decide⟩
    have hkind : c₀.current.kind = .name := by rw [hcurrent]
    have houtcome : a.outcome = .failed (.lexical ⟨'?', "a ? - b * 2 ", 1⟩) a.next := by
      have ho := Cursor.eat_of_pull_error a.solid hkind (Prod.ext hpull rfl)
      have hn : a.next = { c₀ with ahead := c₀.ahead.pull.2 } := congrArg Reading.after ho
      rw [hn]
      exact ho
    have hnext : a.next.current = ⟨.name, some "a", 1⟩ :=
      (Attempt.spared_of_failed houtcome).1.trans hcurrent
    have hbehind : scannerBehind interrupted [a] = (Scanner.ofSource interrupted).afterCalls 2 := by
      have hcalls : callsBy [a] = 1 := by simp [callsBy, Attempt.calls, Cursor.isAt, hkind, a]
      rw [scannerBehind, hcalls]
    have hfaces : a.next.Faces (scannerBehind interrupted [a])
        (interruptedExpr ++ [⟨.mark .semicolon, some ";", 1⟩]) := by
      rw [hbehind]
      refine ⟨5, fun i hi => ?_, ?_⟩
      · have hok : ∀ i < 5,
            (((Scanner.ofSource interrupted).afterCalls 2).answer i).toOption.isSome := by
          decide +kernel
        cases ha : ((Scanner.ofSource interrupted).afterCalls 2).answer i with
        | ok t => exact ⟨t, rfl⟩
        | error e => simpa [ha, Except.toOption] using hok i hi
      · rw [hnext]
        decide +kernel
    have hproduct : IsTerm Token.Writes
        ([⟨.name, some "b", 1⟩] ++ ⟨.mark .times, some "*", 1⟩ :: [⟨.integer, some "2", 1⟩])
        (.binary .mul (.variable ⟨"b", 1⟩) (.literal (.integer 2) 1) 1) :=
      .product (.factor (.variable rfl)) .times (.literal (.inl rfl) (.integer rfl rfl))
    have hx : IsExpr Token.Writes
        ([⟨.name, some "a", 1⟩] ++ ⟨.mark .minus, some "-", 1⟩ :: _) _ :=
      .sum (.term (.factor (.variable rfl))) .minus hproduct
    have hheld : Held interruptedExpr := by
      unfold Held
      decide +kernel
    have extent := extent_of_read h₀ (Cursor.leads_single a)
    obtain ⟨c', lt, hread, heats, ht⟩ :=
      (extent.1 interruptedExpr _ _).2 ⟨hfaces, hx, held_iff.1 hheld, by decide⟩
    exact ⟨a, _, rfl, houtcome, c', lt, hread, heats, ht, extent.2 _ _ _ _ hread heats⟩

end Grammar

end PocketPascal
