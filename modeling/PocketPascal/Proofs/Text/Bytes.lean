import Mathlib.Algebra.Group.Nat.Defs
import Mathlib.Data.List.Basic

/-!
# The order of texts by their bytes

A text is stored as the bytes of its characters in UTF-8: a first byte, from which the number of the
following bytes can be seen, and then six bits of the code point in each of these. The first bytes of
characters with more following bytes are larger, and what does not fit into the first byte follows
with the highest bits in front. So the bytes of a smaller character come before those of a larger
one, and texts have the same order whether they are compared by characters or by bytes.
-/

namespace PocketPascal.Text

/-- The bytes of a text. -/
def bytes (s : String) : List UInt8 := s.toUTF8.data.toList

theorem bytes_eq_flatMap (s : String) : bytes s = s.toList.flatMap String.utf8EncodeChar := by
  rw [bytes, String.toUTF8_eq_toByteArray, ← String.utf8Encode_toList, List.utf8Encode,
    List.toList_data_toByteArray]

/-! ## The bytes of a character -/

/-- The number of bytes after the first one of a code point. -/
def following (v : Nat) : Nat :=
  if v ≤ 0x7F then 0 else if v ≤ 0x7FF then 1 else if v ≤ 0xFFFF then 2 else 3

/-- The first byte of a code point, with the bits that do not fit into the bytes after it. -/
def first (v : Nat) : Nat :=
  if v ≤ 0x7F then v
  else if v ≤ 0x7FF then 0xC0 + v / 64
  else if v ≤ 0xFFFF then 0xE0 + v / 64 ^ 2
  else 0xF0 + v / 64 ^ 3

/-- The last `count` bytes of a code point, with six bits each. -/
def trailing (v : Nat) : Nat → List UInt8
  | 0 => []
  | count + 1 => UInt8.ofNat (v / 64 ^ count % 64 + 0x80) :: trailing v count

theorem toNat_lt_of_char (c : Char) : c.toNat < 0x110000 := by
  rcases c.valid with h | h
  · exact Nat.lt_trans h (by decide)
  · exact h.2

theorem utf8EncodeChar_eq (c : Char) :
    String.utf8EncodeChar c =
      UInt8.ofNat (first c.toNat) :: trailing c.toNat (following c.toNat) := by
  have hc := toNat_lt_of_char c
  unfold String.utf8EncodeChar first following
  simp only [Char.toNat] at hc ⊢
  split
  · rfl
  · split
    · have hfirst : c.val.toNat / 64 % 0x20 + 0xC0 = 0xC0 + c.val.toNat / 64 := by omega
      rw [hfirst]
      simp only [trailing, Nat.pow_zero, Nat.div_one]
    · split
      · have hfirst : c.val.toNat / 4096 % 0x10 + 0xE0 = 0xE0 + c.val.toNat / 4096 := by omega
        rw [hfirst]
        simp only [trailing, Nat.reducePow, Nat.div_one]
      · have hfirst : c.val.toNat / 262144 % 0x08 + 0xF0 = 0xF0 + c.val.toNat / 262144 := by omega
        rw [hfirst]
        simp only [trailing, Nat.reducePow, Nat.div_one]

/-! ## The order -/

theorem ofNat_lt_ofNat {x y : Nat} (h : x < y) (hy : y < 256) : UInt8.ofNat x < UInt8.ofNat y := by
  rw [UInt8.lt_iff_toNat_lt, UInt8.toNat_ofNat_of_lt' hy,
    UInt8.toNat_ofNat_of_lt' (Nat.lt_trans h hy)]
  exact h

/-- Of two code points with the same number of bytes, the larger one has the larger first byte, or
the same one and larger bits after it; of others, the one with more bytes has the larger first
byte. -/
theorem first_lt_or_eq {v w : Nat} (h : v < w) :
    first v < first w ∨
      first v = first w ∧ following v = following w ∧
        v / 64 ^ following v = w / 64 ^ following v := by
  unfold first following
  split_ifs <;> omega

theorem first_lt {v : Nat} (h : v < 0x110000) : first v < 256 := by
  unfold first
  split_ifs <;> omega

/-- Bits that are larger as a number make larger bytes, whatever stands after them. -/
theorem trailing_lt {v w : Nat} (s t : List UInt8) (h : v < w) {count : Nat}
    (hsame : v / 64 ^ count = w / 64 ^ count) : trailing v count ++ s < trailing w count ++ t := by
  induction count with
  | zero =>
    rw [Nat.pow_zero, Nat.div_one, Nat.div_one] at hsame
    omega
  | succ count ih =>
    rw [Nat.pow_succ, ← Nat.div_div_eq_div_mul, ← Nat.div_div_eq_div_mul] at hsame
    have hle : v / 64 ^ count ≤ w / 64 ^ count := Nat.div_le_div_right (Nat.le_of_lt h)
    rw [trailing, trailing, List.cons_append, List.cons_append, List.cons_lt_cons_iff]
    -- the six bits of this byte differ, or the bits down to this byte agree
    rcases Nat.lt_or_eq_of_le hle with hlt | heq
    · exact .inl (ofNat_lt_ofNat (by omega) (by omega))
    · exact .inr ⟨by rw [heq], ih heq⟩

theorem utf8EncodeChar_lt {c d : Char} (s t : List UInt8) (h : c < d) :
    String.utf8EncodeChar c ++ s < String.utf8EncodeChar d ++ t := by
  have hlt : c.toNat < d.toNat := h
  rw [utf8EncodeChar_eq, utf8EncodeChar_eq, List.cons_append, List.cons_append,
    List.cons_lt_cons_iff]
  rcases first_lt_or_eq hlt with hfirst | ⟨hfirst, hcount, hsame⟩
  · exact .inl (ofNat_lt_ofNat hfirst (first_lt (toNat_lt_of_char d)))
  · rw [← hcount]
    exact .inr ⟨by rw [hfirst], trailing_lt s t hlt hsame⟩

/-- The order of characters is kept by their bytes. -/
theorem bytes_lt_bytes {a b : String} (h : a < b) : bytes a < bytes b := by
  rw [bytes_eq_flatMap, bytes_eq_flatMap]
  have hlex : List.Lex (· < ·) a.toList b.toList := h
  generalize a.toList = cs at hlex ⊢
  generalize b.toList = ds at hlex ⊢
  induction hlex with
  | @nil d ds =>
    rw [List.flatMap_cons, utf8EncodeChar_eq]
    exact List.Lex.nil
  | cons _ ih => exact List.append_left_lt ih
  | rel hlt => exact utf8EncodeChar_lt _ _ hlt

end PocketPascal.Text
