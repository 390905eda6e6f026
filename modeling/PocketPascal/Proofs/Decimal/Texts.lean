import Mathlib.Data.List.Basic
import PocketPascal.Value
import Std.Data.String.ToInt

/-!
# The texts of values

The text of a whole number has digits only, after a minus sign if it is negative, and different whole
numbers have different texts. The text of a floating-point number has a character that no whole
number has: a point, the mark of an exponent, or a letter of one of the words for the numbers that
are not finite. So the text of a value shows which kind of number it is, and, if it is a whole
number, which one. No text of a value contains a line break.
-/

namespace PocketPascal

namespace Decimal

/-- A character of the text of a number. -/
def IsFigure (c : Char) : Prop := c.isDigit ∨ c ∈ ['-', '.', 'e', 'i', 'n', 'f', 'N', 'a']

/-- A character by which a floating-point number is known. -/
def IsMark (c : Char) : Prop := c ∈ ['.', 'e', 'i', 'N']

/-- The text consists of characters of numbers. -/
def Figures (s : String) : Prop := ∀ c ∈ s.toList, IsFigure c

/-- The text shows that it is that of a floating-point number. -/
def Marked (s : String) : Prop := ∃ c ∈ s.toList, IsMark c

instance (c : Char) : Decidable (IsFigure c) := inferInstanceAs (Decidable (_ ∨ _))

instance (c : Char) : Decidable (IsMark c) := inferInstanceAs (Decidable (c ∈ _))

instance (s : String) : Decidable (Figures s) := List.decidableBAll IsFigure s.toList

instance (s : String) : Decidable (Marked s) := List.decidableBEx IsMark s.toList

theorem Figures.append {s t : String} (hs : Figures s) (ht : Figures t) : Figures (s ++ t) := by
  intro c hc
  rw [String.toList_append] at hc
  exact (List.mem_append.1 hc).elim (hs c) (ht c)

theorem figures_ofList {cs : List Char} (h : ∀ c ∈ cs, c.isDigit) : Figures (String.ofList cs) := by
  intro c hc
  rw [String.toList_ofList] at hc
  exact .inl (h c hc)

theorem Figures.not_newline {s : String} (h : Figures s) : '\n' ∉ s.toList :=
  fun hmem => absurd (h _ hmem) (by decide)

theorem Marked.append_left {s : String} (h : Marked s) (t : String) : Marked (s ++ t) := by
  obtain ⟨c, hc, hmark⟩ := h
  exact ⟨c, by rw [String.toList_append]; exact List.mem_append_left _ hc, hmark⟩

theorem Marked.append_right {t : String} (h : Marked t) (s : String) : Marked (s ++ t) := by
  obtain ⟨c, hc, hmark⟩ := h
  exact ⟨c, by rw [String.toList_append]; exact List.mem_append_right _ hc, hmark⟩

/-! ## Whole numbers -/

theorem isDigit_of_mem_digitList {n : Nat} {c : Char} (h : c ∈ digitList n) : c.isDigit :=
  Nat.isDigit_of_mem_toDigits (by decide) (by decide) h

theorem digit_or_minus_of_mem_toString {n : Int} {c : Char} (h : c ∈ (toString n).toList) :
    c.isDigit ∨ c = '-' := by
  have hdigits : ∀ m : Nat, c ∈ m.repr.toList → c.isDigit := by
    intro m hm
    rw [Nat.toList_repr] at hm
    exact isDigit_of_mem_digitList hm
  rw [Int.toString_eq_repr, Int.repr_eq_if] at h
  split at h
  · exact .inl (hdigits _ h)
  · rw [String.toList_append] at h
    rcases List.mem_append.1 h with h | h
    · exact .inr (List.mem_singleton.1 h)
    · exact .inl (hdigits _ h)

theorem figures_toString (n : Int) : Figures (toString n) := by
  intro c hc
  rcases digit_or_minus_of_mem_toString hc with hdigit | rfl
  · exact .inl hdigit
  · exact .inr (by decide)

theorem not_marked_toString (n : Int) : ¬ Marked (toString n) := by
  rintro ⟨c, hc, hmark⟩
  rcases digit_or_minus_of_mem_toString hc with hdigit | rfl
  · revert hdigit
    simp only [IsMark, List.mem_cons, List.not_mem_nil, or_false] at hmark
    rcases hmark with rfl | rfl | rfl | rfl <;> decide
  · exact absurd hmark (by decide)

/-! ## Floating-point numbers -/

theorem isDigit_of_mem_leading {s : Scaled} {c : Char} (h : c ∈ (leading s).1) : c.isDigit := by
  have hmem : c ∈ (digitList s.digits).reverse :=
    (List.dropWhile_sublist _).subset (List.mem_reverse.1 h)
  exact isDigit_of_mem_digitList (List.mem_reverse.1 hmem)

theorem isDigit_of_mem_replicate {count : Nat} {c : Char} (h : c ∈ List.replicate count '0') :
    c.isDigit := by
  rw [List.eq_of_mem_replicate h]
  rfl

namespace Notation

variable {digits : List Char}

theorem figures_positional (place : Int) (h : ∀ c ∈ digits, c.isDigit) :
    Figures (result.positional digits place) := by
  have hzeros : ∀ count, Figures (String.ofList (List.replicate count '0')) := fun count =>
    figures_ofList fun c hc => isDigit_of_mem_replicate hc
  unfold positional
  split
  · exact (Figures.append (by decide) (hzeros _)).append (figures_ofList h)
  · dsimp only
    split
    · exact ((figures_ofList h).append (hzeros _)).append (by decide)
    · exact ((figures_ofList fun c hc => h c (List.mem_of_mem_take hc)).append
        (by decide)).append (figures_ofList fun c hc => h c (List.mem_of_mem_drop hc))

theorem marked_positional (digits : List Char) (place : Int) :
    Marked (result.positional digits place) := by
  unfold positional
  split
  · exact (Marked.append_left (by decide) _).append_left _
  · dsimp only
    split
    · exact Marked.append_right (by decide) _
    · exact (Marked.append_right (by decide) _).append_left _

theorem figures_scientific (place : Int) (h : ∀ c ∈ digits, c.isDigit) :
    Figures (result.scientific digits place) := by
  unfold scientific
  refine (((figures_ofList fun c hc => h c (List.mem_of_mem_take hc)).append ?_).append
    (by decide)).append (figures_toString place)
  split
  · decide
  · exact Figures.append (by decide) (figures_ofList fun c hc => h c (List.mem_of_mem_drop hc))

theorem marked_scientific (digits : List Char) (place : Int) :
    Marked (result.scientific digits place) :=
  (Marked.append_right (by decide) _).append_left _

theorem figures_magnitude (b : Binary) : Figures (result.magnitude b) := by
  have hdigits : ∀ c ∈ (leading b.shortest).1, c.isDigit := fun c => isDigit_of_mem_leading
  unfold magnitude
  dsimp only
  split
  · exact figures_positional _ hdigits
  · exact figures_scientific _ hdigits

theorem marked_magnitude (b : Binary) : Marked (result.magnitude b) := by
  unfold magnitude
  dsimp only
  split
  · exact marked_positional _ _
  · exact marked_scientific _ _

theorem figures_write (x : Float) : Figures (result.write x) := by
  unfold write
  split
  · decide
  · have hsign : Figures (if isNegative x then "-" else "") := by split <;> decide
    refine hsign.append ?_
    split
    · decide
    · split
      · decide
      · exact figures_magnitude _

/-- The text of a floating-point number has a point, the mark of an exponent, or one of the words for
the numbers that are not finite. -/
theorem marked_write (x : Float) : Marked (result.write x) := by
  unfold write
  split
  · decide
  · refine Marked.append_right ?_ _
    split
    · decide
    · split
      · decide
      · exact marked_magnitude _

end Notation

end Decimal

namespace Value

open Decimal

theorem figures_text : ∀ v : Value, Figures v.text
  | .integer n => figures_toString n.toInt
  | .real x => Notation.figures_write x

/-- The text of a value shows the kind of the number. -/
theorem marked_text_iff : ∀ v : Value, Marked v.text ↔ v.isReal
  | .integer n => ⟨fun h => absurd h (not_marked_toString n.toInt), nofun⟩
  | .real x => ⟨fun _ => rfl, fun _ => Notation.marked_write x⟩

theorem isReal_of_text {v w : Value} (h : v.text = w.text) : v.isReal = w.isReal := by
  rw [Bool.eq_iff_iff, ← marked_text_iff, ← marked_text_iff, h]

/-- The text of a whole number belongs to no other value. -/
theorem eq_integer_of_text {n : Int64} {v : Value} (h : (integer n).text = v.text) :
    v = .integer n := by
  have hkind := isReal_of_text h
  cases v with
  | integer m =>
    have htext : n.toInt.repr = m.toInt.repr := h
    rw [Int64.toInt_inj.1 (Int.repr_injective htext)]
  | real x => cases hkind

end Value

end PocketPascal
