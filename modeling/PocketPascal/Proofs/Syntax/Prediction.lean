import PocketPascal.Proofs.Token.Course
import PocketPascal.Syntax.Reading

/-!
# Reading with one token of lookahead

A *piece* of the grammar says which tokens are written for which tree. Two things matter when a piece
is read from the front of a text of which only the beginning `w` has been seen:

* `Opens`: the text may still begin with a whole piece;
* `Forces`: whatever follows, a whole piece at the front of the text has some property, provided
  that the text behind it does not go on with a token that would have continued the piece.

`Reading.Meets` is what a reader of a piece has to fulfil in each of its outcomes. A success gives
the only piece that can stand there, and an error shows that none can; the tokens before the error,
and any token that was asked for after them, could still have led to one. The readers are put
together from a few operations, and there is one rule for each of them.
-/

namespace PocketPascal.Grammar

variable {α β : Type}

/-- A piece of the grammar: which tokens are written for which tree. -/
abbrev Piece (α : Type) := List Token → α → Prop

namespace Piece

/-- A token of a given kind. -/
def token (kind : Kind) : Piece Token := fun ts t => ts = [t] ∧ t.kind = kind

/-- A piece, and after it another one that may depend on the tree of the first. -/
def seq (X : Piece α) (Y : α → Piece β) : Piece β :=
  fun ts b => ∃ ls rs a, ts = ls ++ rs ∧ X ls a ∧ Y a rs b

/-- A piece with another tree made of its tree. -/
def map (f : α → β) (X : Piece α) : Piece β := fun ts b => ∃ a, X ts a ∧ b = f a

/-- A piece, or no tokens for a given tree. -/
def optional (a : α) (X : Piece α) : Piece α := fun ts b => (ts = [] ∧ b = a) ∨ X ts b

/-- A piece, and after it a separator and a list, or nothing: the list with its head. -/
def headed (separator : Kind) (X : Piece α) (one : α → β) (add : α → β → β) (L : Piece β) :
    Piece β :=
  seq X fun a => optional (one a) (seq (token separator) fun _ => map (add a) L)

end Piece

/-- The text does not begin with a token of one of the kinds. -/
def Clear (kinds : List Kind) (ts : List Token) : Prop := ∀ t ∈ ts.head?, t.kind ∉ kinds

/-- Some text that begins with `w` is written for the piece. -/
def Opens (X : Piece α) (w : List Token) : Prop := ∃ more a, X (w ++ more) a

/-- In every text that begins with `w`, a whole piece at the front that is not followed by one of the
kinds has the property. -/
def Forces (X : Piece α) (kinds : List Kind) (w : List Token) (P : List Token → α → Prop) : Prop :=
  ∀ more v z a, X v a → Clear kinds z → v ++ z = w ++ more → P v a

/-- Every number among the tokens has a value. -/
def Held (ts : List Token) : Prop :=
  ∀ t ∈ ts, t.kind = .integer ∨ t.kind = .real → t.value?.isSome

variable {kinds kinds' : List Kind} {X : Piece α} {w us vs : List Token}

@[simp] theorem clear_nil : Clear kinds [] := by simp [Clear]

@[simp] theorem clear_cons {t : Token} : Clear kinds (t :: us) ↔ t.kind ∉ kinds := by simp [Clear]

@[simp] theorem clear_none : Clear [] us := by simp [Clear]

theorem Clear.mono (h : Clear kinds us) (hk : kinds' ⊆ kinds) : Clear kinds' us :=
  fun t ht hm => h t ht (hk hm)

@[simp] theorem held_nil : Held [] := by simp [Held]

theorem Held.append (hu : Held us) (hv : Held vs) : Held (us ++ vs) := by
  intro t ht
  rcases List.mem_append.1 ht with h | h
  · exact hu t h
  · exact hv t h

theorem opens_token (kind : Kind) : Opens (Piece.token kind) [] :=
  ⟨[⟨kind, none, 0⟩], _, rfl, rfl⟩

theorem Opens.map (h : Opens X w) (f : α → β) : Opens (Piece.map f X) w := by
  obtain ⟨more, a, hX⟩ := h
  exact ⟨more, f a, a, hX, rfl⟩

/-! ## Pieces one after another -/

section Sequence

variable {Y : α → Piece β} {P : List Token → α → Prop} {Q : List Token → β → Prop}

theorem Opens.seq_left (h : Opens X w) (hY : ∀ a, Opens (Y a) []) : Opens (Piece.seq X Y) w := by
  obtain ⟨more, a, hX⟩ := h
  obtain ⟨rest, b, hb⟩ := hY a
  exact ⟨more ++ rest, b, w ++ more, rest, a, by simp, hX, hb⟩

theorem Opens.seq_right {a : α} (hX : X us a) (h : Opens (Y a) w) :
    Opens (Piece.seq X Y) (us ++ w) := by
  obtain ⟨more, b, hY⟩ := h
  exact ⟨more, b, us, w ++ more, a, by simp, hX, hY⟩

/-- What the beginning of a text forces on the first piece, if no text of the second one could be
taken for more of the first. -/
theorem Forces.seq_left (h : Forces X kinds w P)
    (hc : ∀ a rs b z, Y a rs b → Clear kinds' z → Clear kinds (rs ++ z)) :
    Forces (Piece.seq X Y) kinds' w fun v _ => ∃ ls rs a, v = ls ++ rs ∧ P ls a := by
  rintro more v z b ⟨ls, rs, a, rfl, hX, hY⟩ hz he
  rw [List.append_assoc] at he
  exact ⟨ls, rs, a, rfl, h more ls (rs ++ z) a hX (hc a rs b z hY hz) he⟩

/-- What the beginning of a text forces on the second piece, once the first one is determined. -/
theorem Forces.seq_right {t : Token} {a : α}
    (hX : Forces X kinds (us ++ [t]) fun v b => v = us ∧ b = a)
    (hc : ∀ a rs b z, Y a rs b → Clear kinds' z → Clear kinds (rs ++ z))
    (hw : ∃ more, w = t :: more) (h : Forces (Y a) kinds' w Q) :
    Forces (Piece.seq X Y) kinds' (us ++ w) fun v b => ∃ rs, v = us ++ rs ∧ Q rs b := by
  rintro more v z b ⟨ls, rs, a', rfl, hX', hY⟩ hz he
  obtain ⟨tail, rfl⟩ := hw
  have he' : ls ++ (rs ++ z) = us ++ [t] ++ (tail ++ more) := by simpa using he
  obtain ⟨rfl, rfl⟩ := hX _ _ _ _ hX' (hc a' rs b z hY hz) he'
  exact ⟨rs, rfl, h more rs z b hY hz (by simpa using he)⟩

end Sequence

end PocketPascal.Grammar

namespace PocketPascal.Reading

open PocketPascal.Grammar

variable {α β : Type} {n m : Nat} {c : Cursor} {kinds kinds' : List Kind} {X : Piece α}

/-- What a reader of a piece fulfils on a cursor. The tokens `us` are those it has eaten. -/
inductive Meets (c : Cursor) (X : Piece α) (kinds : List Kind) : Reading n α → Prop where
  /-- A success: the tokens are written for the tree, and no other piece can stand there. -/
  | done {us : List Token} {a : α} {c' : Cursor} {lt : c'.remaining < n} (eats : c.Eats us c')
      (held : Held us) (is : X us a)
      (forces : Forces X kinds (us ++ [c'.current]) fun v b => v = us ∧ b = a) :
      Meets c X kinds (.done a c' lt)
  /-- A token that does not fit: no piece can stand there, but a token of the expected kind could
  have led to one. -/
  | unexpected {us : List Token} {c' : Cursor} {kind : Kind} (eats : c.Eats us c') (held : Held us)
      (opens : ∀ t : Token, t.kind = kind → Opens X (us ++ [t]))
      (forces : Forces X kinds (us ++ [c'.current]) fun _ _ => False) :
      Meets c X kinds (.failed (c'.unexpected kind) c')
  /-- The same where a type was expected. -/
  | noType {us : List Token} {c' : Cursor} (eats : c.Eats us c') (held : Held us)
      (opens : ∀ t : Token, t.kind.isType → Opens X (us ++ [t]))
      (forces : Forces X kinds (us ++ [c'.current]) fun _ _ => False) :
      Meets c X kinds (.failed (.noType c'.current.culprit) c')
  /-- A token that fits and is followed by one that cannot be scanned. -/
  | lexical {us : List Token} {c' : Cursor} {e : LexicalError} {ahead : Feed} (eats : c.Eats us c')
      (held : Held us) (pull : c'.ahead.pull = (.error e, ahead)) (opens : Opens X (us ++ [c'.current]))
      (forces : Forces X kinds (us ++ [c'.current]) fun v _ => us.length < v.length) :
      Meets c X kinds (.failed (.lexical e) { c' with ahead })
  /-- A number that cannot be held: it is the last token that was eaten. -/
  | literal {us : List Token} {t : Token} {c' : Cursor} (eats : c.Eats (us ++ [t]) c')
      (held : Held us) (number : t.kind = .integer ∨ t.kind = .real) (none : t.value? = none)
      (opens : Opens X (us ++ [t]))
      (forces : Forces X kinds (us ++ [t]) fun v _ => us.length < v.length) :
      Meets c X kinds (.failed (.literalTooLarge t.text t.line) c')

/-! ## The rules -/

theorem Meets.weaken {r : Reading n α} (hr : r.Meets c X kinds) (h : n ≤ m) :
    (r.weaken h).Meets c X kinds := by
  cases hr with
  | done eats held is forces => exact .done eats held is forces
  | unexpected eats held opens forces => exact .unexpected eats held opens forces
  | noType eats held opens forces => exact .noType eats held opens forces
  | lexical eats held pull opens forces => exact .lexical eats held pull opens forces
  | literal eats held number none opens forces =>
    exact .literal eats held number none opens forces

/-- Nothing is read, where nothing can be the only reading. -/
theorem meets_done {a : α} {lt : c.remaining < n} (hX : X [] a)
    (h : ∀ v b t more z, X (t :: v) b → Clear kinds z → t :: v ++ z = c.current :: more → False)
    (hn : ∀ b, X [] b → b = a) : (Reading.done a c lt).Meets c X kinds := by
  refine .done (.none c) held_nil hX ?_
  intro more v z b hv hz he
  cases v with
  | nil => exact ⟨rfl, hn b hv⟩
  | cons t v => exact (h v b t more z hv hz he).elim

theorem meets_eat {kind : Kind} (hk : kind ≠ .finish) (hi : kind ≠ .integer) (hr : kind ≠ .real) :
    (c.eat kind hk).Meets c (Piece.token kind) [] := by
  have forces : c.current.kind = kind →
      Forces (Piece.token kind) [] [c.current] fun v b => v = [c.current] ∧ b = c.current := by
    rintro - more v z b ⟨rfl, -⟩ - he
    simp only [List.singleton_append, List.cons.injEq] at he
    obtain ⟨rfl, -⟩ := he
    exact ⟨rfl, rfl⟩
  by_cases hc : c.current.kind = kind
  · cases hp : c.ahead.pull with
    | mk answer ahead =>
      cases answer with
      | ok next =>
        rw [Cursor.eat_of_pull_ok hk hc hp]
        have eats : c.Eats [c.current] (c.advance next ahead) := .more (hc ▸ hk) hp (.none _)
        refine .done eats ?_ ⟨rfl, hc⟩ ?_
        · intro t ht h
          rw [List.mem_singleton.1 ht, hc] at h
          exact (h.elim hi hr).elim
        · intro more v z b hv hz he
          exact forces hc (_ :: more) v z b hv hz (by simpa using he)
      | error e =>
        rw [Cursor.eat_of_pull_error hk hc hp]
        refine .lexical (.none c) held_nil hp ⟨[], c.current, by simp, hc⟩ ?_
        intro more v z b hv hz he
        rw [(forces hc more v z b hv hz he).1]
        simp
  · rw [Cursor.eat_of_ne hk hc]
    refine .unexpected (.none c) held_nil (fun t ht => ⟨[], t, by simp, ht⟩) ?_
    rintro more v z b ⟨rfl, hb⟩ - he
    simp only [List.nil_append, List.singleton_append, List.cons.injEq] at he
    rw [he.1] at hb
    exact hc hb

/-- An error of a reader is one of a larger reader that has eaten `ps` before, if the beginnings of
the smaller piece lead to beginnings of the larger one, and what is forced on the smaller piece is
forced on the part of the larger one behind `ps`. -/
theorem Meets.failed {γ : Type} {Z : Piece γ} {c₁ after : Cursor} {ps : List Token}
    {cause : SyntaxError} (hr : (Reading.failed cause after : Reading n γ).Meets c₁ Z kinds)
    (hp : c.Eats ps c₁) (hh : Held ps) (ho : ∀ w, Opens Z w → Opens X (ps ++ w))
    (hf : ∀ us c' (Q : List Token → Prop), c₁.Eats us c' →
      Forces Z kinds (us ++ [c'.current]) (fun v _ => Q v) →
      Forces X kinds' (ps ++ (us ++ [c'.current])) fun v _ =>
        ∃ rs tail, v = ps ++ (rs ++ tail) ∧ Q rs) :
    (Reading.failed cause after : Reading m α).Meets c X kinds' := by
  cases hr with
  | @unexpected us c' kind eats held opens forces =>
    refine .unexpected (hp.trans eats) (hh.append held) ?_ ?_
    · intro t ht
      rw [List.append_assoc]
      exact ho _ (opens t ht)
    · intro more v z a hv hz he
      rw [List.append_assoc ps us] at he
      obtain ⟨_, _, _, h⟩ := hf us after (fun _ => False) eats forces more v z a hv hz he
      exact h
  | @noType us c' eats held opens forces =>
    refine .noType (hp.trans eats) (hh.append held) ?_ ?_
    · intro t ht
      rw [List.append_assoc]
      exact ho _ (opens t ht)
    · intro more v z a hv hz he
      rw [List.append_assoc ps us] at he
      obtain ⟨_, _, _, h⟩ := hf us after (fun _ => False) eats forces more v z a hv hz he
      exact h
  | @lexical us c' e ahead eats held pull opens forces =>
    refine .lexical (hp.trans eats) (hh.append held) pull ?_ ?_
    · rw [List.append_assoc]
      exact ho _ opens
    · intro more v z a hv hz he
      rw [List.append_assoc ps us] at he
      obtain ⟨rs, tail, rfl, h⟩ :=
        hf us c' (fun v => us.length < v.length) eats forces more v z a hv hz he
      simp only [List.length_append]
      omega
  | @literal us t c' eats held number none opens forces =>
    have both : c.Eats (ps ++ us ++ [t]) after := by
      rw [List.append_assoc]
      exact hp.trans eats
    refine .literal both (hh.append held) number none ?_ ?_
    · rw [List.append_assoc]
      exact ho _ opens
    · obtain ⟨c₂, heats, rfl⟩ := eats.of_concat
      intro more v z a hv hz he
      rw [List.append_assoc ps us] at he
      obtain ⟨rs, tail, rfl, h⟩ :=
        hf us c₂ (fun v => us.length < v.length) heats forces more v z a hv hz he
      simp only [List.length_append]
      omega

/-- Reading one piece after another. The pieces that can come second have to exist, and none of them
may begin so that it could be taken for more of the first piece. -/
theorem Meets.bind {Y : α → Piece β} {r : Reading n α}
    {next : α → (c : Cursor) → c.remaining < n → Reading m β} (hr : r.Meets c X kinds)
    (hn : ∀ a c' lt, (next a c' lt).Meets c' (Y a) kinds') (ho : ∀ a, Opens (Y a) [])
    (hc : ∀ a rs b z, Y a rs b → Clear kinds' z → Clear kinds (rs ++ z)) :
    (r.bind next).Meets c (Piece.seq X Y) kinds' := by
  cases r with
  | failed cause after =>
    refine hr.failed (.none c) held_nil (fun w hw => hw.seq_left ho) ?_
    intro us c' Q _ hQ more v z b hv hz he
    obtain ⟨ls, rs, a, rfl, h⟩ := hQ.seq_left hc more v z b hv hz he
    exact ⟨ls, rs, rfl, h⟩
  | done a c₁ lt =>
    show (next a c₁ lt).Meets c (Piece.seq X Y) kinds'
    cases hr with
    | @done us _ _ _ eats held is forces =>
      have second : ∀ {vs : List Token} {c' : Cursor} {Q : List Token → β → Prop}, c₁.Eats vs c' →
          Forces (Y a) kinds' (vs ++ [c'.current]) Q →
          Forces (Piece.seq X Y) kinds' (us ++ (vs ++ [c'.current])) fun v b =>
            ∃ rs, v = us ++ rs ∧ Q rs b :=
        fun hvs hQ => Forces.seq_right forces hc hvs.starts hQ
      have hr := hn a c₁ lt
      cases hr' : next a c₁ lt with
      | failed cause after =>
        rw [hr'] at hr
        refine hr.failed eats held (fun w hw => hw.seq_right is) ?_
        intro vs c' Q hvs hQ more v z b hv hz he
        obtain ⟨rs, rfl, h⟩ := second hvs hQ more v z b hv hz he
        exact ⟨rs, [], by simp, h⟩
      | done b c' lt' =>
        rw [hr'] at hr
        cases hr with
        | @done vs _ _ _ eats' held' is' forces' =>
          refine .done (eats.trans eats') (held.append held') ⟨us, vs, a, rfl, is, is'⟩ ?_
          intro more v z b' hv hz he
          rw [List.append_assoc us vs] at he
          obtain ⟨rs, rfl, rfl, rfl⟩ := second eats' forces' more v z b' hv hz he
          exact ⟨rfl, rfl⟩

theorem Meets.map {r : Reading n α} (hr : r.Meets c X kinds) (f : α → β) :
    (r.map f).Meets c (Piece.map f X) kinds := by
  cases r with
  | failed cause after =>
    refine hr.failed (.none c) held_nil (fun w hw => hw.map f) ?_
    rintro us c' Q - hQ more v z b ⟨a, hv, rfl⟩ hz he
    exact ⟨v, [], by simp, hQ more v z a hv hz he⟩
  | done a c' lt =>
    cases hr with
    | done eats held is forces =>
      refine .done eats held ⟨a, is, rfl⟩ ?_
      rintro more v z b ⟨a', hv, rfl⟩ hz he
      obtain ⟨rfl, rfl⟩ := forces more v z a' hv hz he
      exact ⟨rfl, rfl⟩

/-- Reading one of several alternatives: the one that can begin with the current token. -/
theorem Meets.of_alternative {Z : Piece α} {r : Reading n α} (hr : r.Meets c Z kinds')
    (hk : ∀ z, Clear kinds z → Clear kinds' z) (hZ : ∀ ts a, Z ts a → X ts a)
    (hX : ∀ v a z more, X v a → Clear kinds z → v ++ z = c.current :: more → Z v a) :
    r.Meets c X kinds := by
  have forces : ∀ {us : List Token} {c' : Cursor} {P : List Token → α → Prop}, c.Eats us c' →
      Forces Z kinds' (us ++ [c'.current]) P → Forces X kinds (us ++ [c'.current]) P := by
    intro us c' P heats hP more v z a hv hz he
    obtain ⟨tail, ht⟩ := heats.starts
    refine hP more v z a (hX v a z (tail ++ more) hv hz ?_) (hk z hz) he
    rw [he, ht, List.cons_append]
  cases r with
  | failed cause after =>
    refine hr.failed (.none c) held_nil ?_ ?_
    · rintro w ⟨more, a, h⟩
      exact ⟨more, a, hZ _ _ h⟩
    · intro us c' Q heats hQ more v z a hv hz he
      exact ⟨v, [], by simp, forces heats hQ more v z a hv hz he⟩
  | done a c' lt =>
    cases hr with
    | done eats held is hP => exact .done eats held (hZ _ _ is) (forces eats hP)

/-- Reading a piece that begins with a token of one kind, if such a token stands there. -/
theorem meets_optional (kinds' : List Kind) {a : α} {kind : Kind} {r : Reading n α}
    {lt : c.remaining < n}
    (hr : c.current.kind = kind → r.Meets c X kinds')
    (hs : ∀ ts b, X ts b → ∃ t more, ts = t :: more ∧ t.kind = kind) (hk : kind ∈ kinds)
    (hsub : kinds' ⊆ kinds) :
    (if c.isAt kind then r else .done a c lt).Meets c (Piece.optional a X) kinds := by
  split
  · rename_i hc
    have hc : c.current.kind = kind := by simpa [Cursor.isAt] using hc
    refine (hr hc).of_alternative (fun z hz => hz.mono hsub) (fun ts b h => .inr h) ?_
    rintro v b z more (⟨rfl, -⟩ | h) hz he
    · rw [List.nil_append] at he
      subst he
      rw [clear_cons, hc] at hz
      exact absurd hk hz
    · exact h
  · rename_i hc
    refine meets_done (.inl ⟨rfl, rfl⟩) ?_ ?_
    · rintro v b t more z (⟨h, -⟩ | h) - he
      · cases h
      · obtain ⟨_, _, hv, ht⟩ := hs _ _ h
        obtain ⟨rfl, -⟩ := List.cons.inj hv
        obtain ⟨rfl, -⟩ := List.cons.inj he
        exact absurd (by simpa [Cursor.isAt] using ht) hc
    · rintro b (⟨-, h⟩ | h)
      · exact h
      · obtain ⟨_, _, hv, -⟩ := hs _ _ h
        cases hv

/-- Reading pieces that are divided by separators, at least one. -/
theorem meets_headed {separator : Kind} {one : α → β} {add : α → β → β} {L : Piece β}
    {r : Reading n α} {rest : α → (c₁ : Cursor) → c₁.remaining < n → (c₂ : Cursor) →
      c₂.remaining < c₁.remaining → Reading n β} (hr : r.Meets c X kinds)
    (hrest : ∀ a c₁ h₁ c₂ h₂, (rest a c₁ h₁ c₂ h₂).Meets c₂ (Piece.map (add a) L) kinds')
    (hL : Opens L []) (hs : separator ≠ .finish) (hi : separator ≠ .integer)
    (hr' : separator ≠ .real) (hk : separator ∉ kinds) (hk' : separator ∈ kinds')
    (hsub : kinds ⊆ kinds') :
    (r.bind fun a c₁ h₁ =>
      if c₁.isAt separator then
        (c₁.eat separator hs).bind fun _ c₂ h₂ => rest a c₁ h₁ c₂ h₂
      else .done (one a) c₁ h₁).Meets c (Piece.headed separator X one add L) kinds' := by
  have starts : ∀ (a : α) (ts : List Token) (b : β),
      Piece.seq (Piece.token separator) (fun _ => Piece.map (add a) L) ts b →
        ∃ t more, ts = t :: more ∧ t.kind = separator := by
    rintro a ts b ⟨ls, rs, t, rfl, ⟨rfl, ht⟩, -⟩
    exact ⟨t, rs, rfl, ht⟩
  refine hr.bind (fun a c₁ h₁ => meets_optional _ (fun _ => ?_) (starts a) hk' (List.Subset.refl _))
    (fun a => ⟨[], one a, .inl ⟨rfl, rfl⟩⟩) ?_
  · exact (meets_eat hs hi hr').bind (fun _ c₂ h₂ => hrest a c₁ h₁ c₂ h₂) (fun _ => hL.map _)
      (fun _ _ _ _ _ _ => clear_none)
  · rintro a rs b z (⟨rfl, -⟩ | h) hz
    · exact hz.mono hsub
    · obtain ⟨t, more, rfl, ht⟩ := starts a rs b h
      simpa [ht] using hk

end PocketPascal.Reading
