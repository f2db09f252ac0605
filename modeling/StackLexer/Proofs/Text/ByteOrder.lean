import Mathlib.Tactic.SplitIfs

/-! The order of texts is that of their bytes.
Texts are compared by code points. In UTF-8 the first byte of a character grows with the number of its
bytes, and of two characters of one length the first bytes that differ are ordered as the code points
are, so comparing bytes comes to the same. -/

namespace StackLexer.Text

def bytes (s : String) : List UInt8 := s.toByteArray.data.toList

theorem bytes_ofList (cs : List Char) :
    bytes (String.ofList cs) = cs.flatMap String.utf8EncodeChar := by
  rw [bytes, String.toByteArray_ofList, List.utf8Encode, List.toList_data_toByteArray]

theorem encode_lt {c d : Char} (before : c < d) (s t : List UInt8) :
    String.utf8EncodeChar c ++ s < String.utf8EncodeChar d ++ t := by
  have before : c.val.toNat < d.val.toNat := before
  have bound : d.val.toNat < 0x110000 := by
    have valid := d.valid
    simp only [UInt32.isValidChar, Nat.isValidChar] at valid
    omega
  unfold String.utf8EncodeChar
  generalize c.val.toNat = m at before
  generalize d.val.toNat = n at before bound
  -- One case for each pair of lengths. The bytes are digits to base 64, so each case is arithmetic.
  simp only
  split_ifs
  all_goals
    simp only [List.cons_append, List.nil_append, List.cons_lt_cons_iff, UInt8.lt_iff_toNat_lt,
      ← UInt8.toNat_inj, UInt8.toNat_ofNat']
    simp (disch := omega) only [Nat.mod_eq_of_lt]
    omega

theorem encodes_lt {cs ds : List Char} (before : cs < ds) :
    cs.flatMap String.utf8EncodeChar < ds.flatMap String.utf8EncodeChar := by
  induction before with
  | @nil d ds =>
    have some_ : String.utf8EncodeChar d ≠ [] := by
      intro none_
      have length := String.length_utf8EncodeChar d
      rw [none_] at length
      exact Nat.ne_of_gt d.utf8Size_pos length.symm
    obtain ⟨first, rest, bytes⟩ := List.exists_cons_of_ne_nil some_
    rw [List.flatMap_nil, List.flatMap_cons, bytes]
    exact List.nil_lt_cons first _
  | rel before =>
    rw [List.flatMap_cons, List.flatMap_cons]
    exact encode_lt before _ _
  | cons _ ih =>
    rw [List.flatMap_cons, List.flatMap_cons]
    exact List.append_left_lt ih

theorem bytes_lt {a b : String} (before : a < b) : bytes a < bytes b := by
  have encoded := encodes_lt (String.lt_iff.mp before)
  rwa [← bytes_ofList, ← bytes_ofList, String.ofList_toList, String.ofList_toList] at encoded

end StackLexer.Text
