import Mathlib.Algebra.Group.Nat.Defs
import PocketPascal.Proofs.Syntax.Expressions

/-!
# Numbers in the grammar

The grammar takes what its numbers stand for as a relation. This module compares the relations that
are used for it: that every number counts, whatever its size; that a number has the value of
`Token.number`; and that it is written for a value that can be held, which is `Token.Writes`. Tokens
that are derived with one of them are derived with every other one that gives each of their numbers a
value, and the tree stays the same where the values do.
-/

namespace PocketPascal

namespace Token

/-- The token is a number that can be held, and this is its value. -/
inductive Writes (t : Token) : Value → Prop where
  /-- A whole number of 64 bits. -/
  | integer {n : Int64} (hk : t.kind = .integer)
      (hn : n.toInt = Decimal.natOfDigits t.text.toList) : Writes t (.integer n)
  /-- A finite floating-point number. -/
  | real {x : Float} (hk : t.kind = .real) (hx : Decimal.float? t.text = some x)
      (hf : x.isFinite) : Writes t (.real x)

/-- A number can be held: a whole number is at most `2 ^ 63 - 1`, whatever zeros stand in front of
it, and a floating-point number is finite. -/
def InRange (t : Token) : Prop :=
  (t.kind = .integer → Decimal.natOfDigits t.text.toList ≤ 2 ^ 63 - 1) ∧
    (t.kind = .real → ∃ x, Decimal.float? t.text = some x ∧ x.isFinite)

/-- The value of a token is the one that it writes. -/
theorem value?_eq_some_iff {t : Token} {value : Value} : t.value? = some value ↔ t.Writes value := by
  unfold value?
  split
  · rename_i hk
    constructor
    · intro h
      obtain ⟨n, hn, rfl⟩ := Option.map_eq_some_iff.1 h
      cases hc : Whole.checked (Decimal.natOfDigits t.text.toList) with
      | error f =>
        rw [hc] at hn
        cases hn
      | ok m =>
        rw [hc] at hn
        cases hn
        exact .integer hk (Whole.checked_eq_ok_iff.1 hc)
    · intro h
      cases h with
      | integer _ hn =>
        rw [Whole.checked_eq_ok_iff.2 hn]
        rfl
      | real hk' => rw [hk] at hk'; cases hk'
  · rename_i hk
    constructor
    · intro h
      obtain ⟨x, hx, rfl⟩ := Option.map_eq_some_iff.1 h
      obtain ⟨hx, hf⟩ := Option.filter_eq_some_iff.1 hx
      exact .real hk hx hf
    · intro h
      cases h with
      | integer hk' => rw [hk] at hk'; cases hk'
      | real _ hx hf =>
        rw [hx]
        simp [hf]
  · rename_i hi hr
    constructor
    · intro h
      cases h
    · intro h
      cases h with
      | integer hk => exact absurd hk hi
      | real hk => exact absurd hk hr

theorem isSome_value?_iff {t : Token} (hn : t.kind = .integer ∨ t.kind = .real) :
    t.value?.isSome ↔ t.InRange := by
  rw [Option.isSome_iff_exists]
  simp only [value?_eq_some_iff]
  constructor
  · rintro ⟨value, h⟩
    cases h with
    | @integer n hk hm =>
      refine ⟨fun _ => ?_, fun hk' => ?_⟩
      · have := n.toInt_lt
        omega
      · rw [hk] at hk'
        cases hk'
    | real hk hx hf =>
      refine ⟨fun hk' => ?_, fun _ => ⟨_, hx, hf⟩⟩
      rw [hk] at hk'
      cases hk'
  · rintro ⟨hi, hr⟩
    rcases hn with hk | hk
    · refine ⟨_, .integer hk (Whole.toInt_ofInt ?_)⟩
      have := hi hk
      exact ⟨by omega, by omega⟩
    · obtain ⟨x, hx, hf⟩ := hr hk
      exact ⟨_, .real hk hx hf⟩

end Token

namespace Grammar

/-- The numbers among tokens have values exactly when they can be held. -/
theorem held_iff {ts : List Token} : Held ts ↔ ∀ t ∈ ts, t.InRange := by
  constructor
  · intro h t ht
    refine ⟨fun hk => ?_, fun hk => ?_⟩
    · exact ((Token.isSome_value?_iff (.inl hk)).1 (h t ht (.inl hk))).1 hk
    · exact ((Token.isSome_value?_iff (.inr hk)).1 (h t ht (.inr hk))).2 hk
  · intro h t ht hn
    exact (Token.isSome_value?_iff hn).2 (h t ht)

/-! ## Other values for the same tokens -/

/-- Every number among the tokens with a value has another value, the same one if `keep` holds. -/
def Revalues (R S : Token → Value → Prop) (keep : Prop) (ts : List Token) : Prop :=
  ∀ t ∈ ts, t.kind = .integer ∨ t.kind = .real →
    ∀ value, R t value → ∃ value', S t value' ∧ (keep → value' = value)

variable {R S : Token → Value → Prop} {keep : Prop}

theorem Revalues.left {us vs : List Token} (h : Revalues R S keep (us ++ vs)) :
    Revalues R S keep us :=
  fun t ht => h t (List.mem_append_left vs ht)

theorem Revalues.right {us vs : List Token} (h : Revalues R S keep (us ++ vs)) :
    Revalues R S keep vs :=
  fun t ht => h t (List.mem_append_right us ht)

theorem Revalues.tail {t : Token} {ts : List Token} (h : Revalues R S keep (t :: ts)) :
    Revalues R S keep ts :=
  fun u hu => h u (List.mem_cons_of_mem t hu)

mutual

theorem IsExpr.revalue : ∀ {ts : List Token} {e : Expr}, IsExpr R ts e → Revalues R S keep ts →
    ∃ e', IsExpr S ts e' ∧ (keep → e' = e)
  | _, _, .term h, hv => by
    obtain ⟨e', h', hk⟩ := h.revalue hv
    exact ⟨e', .term h', hk⟩
  | _, _, .sum hl ht hr, hv => by
    obtain ⟨left, hl', hkl⟩ := hl.revalue hv.left
    obtain ⟨right, hr', hkr⟩ := hr.revalue hv.right.tail
    exact ⟨_, .sum hl' ht hr', fun k => by rw [hkl k, hkr k]⟩

theorem IsTerm.revalue : ∀ {ts : List Token} {e : Expr}, IsTerm R ts e → Revalues R S keep ts →
    ∃ e', IsTerm S ts e' ∧ (keep → e' = e)
  | _, _, .factor h, hv => by
    obtain ⟨e', h', hk⟩ := h.revalue hv
    exact ⟨e', .factor h', hk⟩
  | _, _, .product hl ht hr, hv => by
    obtain ⟨left, hl', hkl⟩ := hl.revalue hv.left
    obtain ⟨right, hr', hkr⟩ := hr.revalue hv.right.tail
    exact ⟨_, .product hl' ht hr', fun k => by rw [hkl k, hkr k]⟩

theorem IsFactor.revalue : ∀ {ts : List Token} {e : Expr}, IsFactor R ts e →
    Revalues R S keep ts → ∃ e', IsFactor S ts e' ∧ (keep → e' = e)
  | _, _, .literal ht hR, hv => by
    obtain ⟨value, hS, hk⟩ := hv _ (by simp) ht _ hR
    exact ⟨_, .literal ht hS, fun k => by rw [hk k]⟩
  | _, _, .variable ht, _ => ⟨_, .variable ht, fun _ => rfl⟩
  | _, _, .sign ht h, hv => by
    obtain ⟨operand, h', hk⟩ := h.revalue hv.tail
    exact ⟨_, .sign ht h', fun k => by rw [hk k]⟩
  | _, _, .parens ho h hc, hv => by
    obtain ⟨e', h', hk⟩ := h.revalue hv.left.tail
    exact ⟨e', .parens ho h' hc, hk⟩

end

mutual

theorem IsStatement.revalue : ∀ {ts : List Token} {s : Statement}, IsStatement R ts s →
    Revalues R S keep ts → ∃ s', IsStatement S ts s' ∧ (keep → s' = s)
  | _, _, .empty, _ => ⟨_, .empty, fun _ => rfl⟩
  | _, _, .assign ht hs h, hv => by
    obtain ⟨value, h', hk⟩ := h.revalue hv.tail.tail
    exact ⟨_, .assign ht hs h', fun k => by rw [hk k]⟩
  | _, _, .compound h, hv => by
    obtain ⟨body, h', hk⟩ := h.revalue hv
    exact ⟨_, .compound h', fun k => by rw [hk k]⟩

theorem IsStatements.revalue : ∀ {ts : List Token} {body : List Statement},
    IsStatements R ts body → Revalues R S keep ts →
    ∃ body', IsStatements S ts body' ∧ (keep → body' = body)
  | _, _, .last h, hv => by
    obtain ⟨s, h', hk⟩ := h.revalue hv
    exact ⟨_, .last h', fun k => by rw [hk k]⟩
  | _, _, .more h hs hr, hv => by
    obtain ⟨s, h', hk⟩ := h.revalue hv.left
    obtain ⟨body, hr', hkr⟩ := hr.revalue hv.right.tail
    exact ⟨_, .more h' hs hr', fun k => by rw [hk k, hkr k]⟩

theorem IsCompound.revalue : ∀ {ts : List Token} {body : List Statement}, IsCompound R ts body →
    Revalues R S keep ts → ∃ body', IsCompound S ts body' ∧ (keep → body' = body)
  | _, _, .block ho h hc, hv => by
    obtain ⟨body, h', hk⟩ := h.revalue hv.left.tail
    exact ⟨_, .block ho h' hc, hk⟩

end

mutual

theorem IsBlock.revalue : ∀ {ts : List Token} {block : Block}, IsBlock R ts block →
    Revalues R S keep ts → ∃ block', IsBlock S ts block' ∧ (keep → block' = block)
  | _, _, .parts hs hp hb, hv => by
    obtain ⟨procedures, hp', hkp⟩ := hp.revalue hv.left.right
    obtain ⟨body, hb', hkb⟩ := hb.revalue hv.right
    exact ⟨_, .parts hs hp' hb', fun k => by rw [hkp k, hkb k]⟩

theorem IsProcedures.revalue : ∀ {ts : List Token} {procedures : List Declaration},
    IsProcedures R ts procedures → Revalues R S keep ts →
    ∃ procedures', IsProcedures S ts procedures' ∧ (keep → procedures' = procedures)
  | _, _, .none, _ => ⟨_, .none, fun _ => rfl⟩
  | _, _, .more h he hr, hv => by
    obtain ⟨procedure, h', hk⟩ := h.revalue hv.left
    obtain ⟨procedures, hr', hkr⟩ := hr.revalue hv.right.tail
    exact ⟨_, .more h' he hr', fun k => by rw [hk k, hkr k]⟩

theorem IsProcedure.revalue : ∀ {ts : List Token} {procedure : Declaration},
    IsProcedure R ts procedure → Revalues R S keep ts →
    ∃ procedure', IsProcedure S ts procedure' ∧ (keep → procedure' = procedure)
  | _, _, .parts ho hn hp hs hb, hv => by
    obtain ⟨block, hb', hk⟩ := hb.revalue hv.right.tail
    exact ⟨_, .parts ho hn hp hs hb', fun k => by rw [hk k]⟩

end

/-- Tokens that are derived with values for their numbers are derived with other values for them. -/
theorem IsProgram.revalue {ts : List Token} {p : Program} (h : IsProgram R ts p)
    (hv : Revalues R S keep ts) : ∃ p', IsProgram S ts p' ∧ (keep → p' = p) := by
  cases h with
  | parts ho hn hs hb hp =>
    obtain ⟨block, hb', hk⟩ := hb.revalue hv.left.tail.tail.tail
    exact ⟨_, .parts ho hn hs hb' hp, fun k => by rw [hk k]⟩

/-! ## The relations in use -/

/-- Whatever values the numbers have, each of them counts as some value. -/
theorem revalues_number {ts : List Token} : Revalues R Numbered False ts :=
  fun t _ _ _ _ => ⟨t.number, rfl, False.elim⟩

theorem revalues_any {ts : List Token} : Revalues R (fun _ _ => True) False ts :=
  fun _ _ _ value _ => ⟨value, trivial, False.elim⟩

theorem revalues_writes {ts : List Token} : Revalues Token.Writes Numbered True ts :=
  fun _ _ _ value hw =>
    ⟨value, Token.number_of_value? (Token.value?_eq_some_iff.2 hw), fun _ => rfl⟩

theorem Held.revalues {ts : List Token} (hh : Held ts) : Revalues Numbered Token.Writes True ts := by
  rintro t ht hn value rfl
  obtain ⟨value, hw⟩ := Option.isSome_iff_exists.1 (hh t ht hn)
  rw [Token.number_of_value? hw]
  exact ⟨value, Token.value?_eq_some_iff.1 hw, fun _ => rfl⟩

/-- A sentence is derived with the numbers that its tokens count as. -/
theorem isSentence_iff {ts : List Token} : IsSentence ts ↔ ∃ p, IsProgram Numbered ts p := by
  constructor
  · rintro ⟨p, h⟩
    obtain ⟨p', h', -⟩ := h.revalue revalues_number
    exact ⟨p', h'⟩
  · rintro ⟨p, h⟩
    obtain ⟨p', h', -⟩ := h.revalue revalues_any
    exact ⟨p', h'⟩

/-- Where all numbers can be held, they count as what they are written for. -/
theorem isProgram_writes_iff {ts : List Token} {p : Program} (hh : Held ts) :
    IsProgram Token.Writes ts p ↔ IsProgram Numbered ts p := by
  constructor
  · intro h
    obtain ⟨p', h', hk⟩ := h.revalue revalues_writes
    exact hk trivial ▸ h'
  · intro h
    obtain ⟨p', h', hk⟩ := h.revalue hh.revalues
    exact hk trivial ▸ h'

theorem isExpr_writes_iff {ts : List Token} {e : Expr} (hh : Held ts) :
    IsExpr Token.Writes ts e ↔ IsExpr Numbered ts e := by
  constructor
  · intro h
    obtain ⟨e', h', hk⟩ := h.revalue revalues_writes
    exact hk trivial ▸ h'
  · intro h
    obtain ⟨e', h', hk⟩ := h.revalue hh.revalues
    exact hk trivial ▸ h'

end Grammar

end PocketPascal
