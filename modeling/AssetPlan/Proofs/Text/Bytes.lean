import Mathlib.Data.List.Lex
import Mathlib.Data.String.Basic

/-! # The order of texts by their bytes

Texts are compared by their characters. Comparing their UTF-8 bytes is the same: of two characters
the greater one has the greater byte where their encodings first differ, and neither encoding is
the start of the other, whatever follows them.
-/

namespace AssetPlan.Text

/-- The bytes of a text in UTF-8. -/
def bytes (s : String) : List UInt8 := s.toUTF8.data.toList

/-- The order of texts by their bytes. -/
def BytesBelow (s t : String) : Prop := List.Lex (· < ·) (bytes s) (bytes t)

variable {c d : Char} {xs ys : List UInt8} {s t : String}

theorem bytes_eq (s : String) : bytes s = s.toList.flatMap String.utf8EncodeChar := by
  rw [bytes, String.toUTF8_eq_toByteArray, ← String.utf8Encode_toList, List.utf8Encode,
    List.data_toByteArray]

/-- The first of two rows of bytes is below the second if its first byte is below, or else if the
rest is. -/
private theorem lex_byte {a b : Nat} (small : b < 256) (first : a ≤ b)
    (later : a = b → List.Lex (· < ·) xs ys) :
    List.Lex (· < ·) (UInt8.ofNat a :: xs) (UInt8.ofNat b :: ys) := by
  rcases Nat.lt_or_eq_of_le first with below | same
  · apply List.Lex.rel
    rw [UInt8.lt_iff_toNat_lt, UInt8.toNat_ofNat', UInt8.toNat_ofNat']
    omega
  · rw [same]
    exact .cons (later same)

/-- Characters in order have bytes in order, whatever follows them. -/
theorem lex_utf8EncodeChar (below : c < d) (xs ys : List UInt8) :
    List.Lex (· < ·) (String.utf8EncodeChar c ++ xs) (String.utf8EncodeChar d ++ ys) := by
  have lower : c.val.toNat < d.val.toNat := below
  have valid : d.val.toNat < 55296 ∨ 57343 < d.val.toNat ∧ d.val.toNat < 1114112 := d.valid
  simp only [String.utf8EncodeChar]
  generalize c.val.toNat = v at lower
  generalize d.val.toNat = w at lower valid
  -- the lower character has no longer encoding; the bytes decide one after the other
  split_ifs <;> try omega
  all_goals
    simp only [List.cons_append, List.nil_append]
    refine lex_byte (by omega) (by omega) fun first => ?_
    try omega
  all_goals
    refine lex_byte (by omega) (by omega) fun second => ?_
    try omega
  all_goals
    refine lex_byte (by omega) (by omega) fun third => ?_
    try omega
  exact lex_byte (by omega) (by omega) fun fourth => by omega

/-- Texts in order have bytes in order. -/
theorem bytesBelow_of_lt (below : s < t) : BytesBelow s t := by
  have chars : List.Lex (· < ·) s.toList t.toList := below
  rw [BytesBelow, bytes_eq, bytes_eq]
  generalize s.toList = cs at chars
  generalize t.toList = ds at chars
  induction chars with
  | nil =>
    obtain ⟨first, rest, found⟩ := List.exists_cons_of_ne_nil String.utf8EncodeChar_ne_nil
    rw [List.flatMap_nil, List.flatMap_cons, found]
    exact .nil
  | rel below => exact lex_utf8EncodeChar below _ _
  | cons _ ih => exact List.Lex.append_left _ ih _

/-- Texts are in the order of their bytes. -/
theorem bytesBelow_iff : BytesBelow s t ↔ s < t := by
  refine ⟨fun below => ?_, bytesBelow_of_lt⟩
  have other {u v : UInt8} : u < v → ¬ v < u := UInt8.lt_asymm
  rcases lt_trichotomy s t with less | rfl | greater
  · exact less
  · exact (List.lex_asymm other below below).elim
  · exact (List.lex_asymm other below (bytesBelow_of_lt greater)).elim

end AssetPlan.Text
