import StackLexer.Text.Line

/-! Parts of a text by their bytes.
Between two positions of a line stands the text that takes the bytes from the offset of the one to
the offset of the other. -/

namespace StackLexer

def Slice (text : String) (span : Span) (value : String) : Prop :=
  ∃ before after : String, text = before ++ value ++ after ∧
    before.utf8ByteSize = span.start ∧ (before ++ value).utf8ByteSize = span.stop

theorem Text.utf8ByteSize_ofList (cs : List Char) :
    (String.ofList cs).utf8ByteSize = Text.byteLength cs := by
  induction cs with
  | nil => simp
  | cons c rest ih =>
    have split : String.ofList (c :: rest) = String.ofList [c] ++ String.ofList rest := by
      rw [← String.ofList_append, List.singleton_append]
    have one : (String.ofList [c]).utf8ByteSize = c.utf8Size := by
      rw [← String.size_toByteArray, String.toByteArray_ofList, List.utf8Encode_singleton,
        List.size_toByteArray, String.length_utf8EncodeChar]
    rw [split, String.utf8ByteSize_append, one, ih, Text.byteLength_cons]

namespace Line

@[simp] theorem toList_chars_ofString (text : String) :
    (ofString text).chars.toList = text.toList := by
  simp [ofString]

theorem text_eq (l : Line) (i j : Nat) :
    l.text i j = String.ofList ((l.chars.toList.drop i).take (j - i)) := by
  rw [text, Array.toList_extract, List.extract_eq_take_drop]

@[simp] theorem offset_zero (l : Line) : l.offset 0 = 0 := by
  simp [offset_eq]

theorem offset_size (text : String) :
    (ofString text).offset (ofString text).size = text.utf8ByteSize := by
  rw [offset_eq, size, ← Array.length_toList, List.take_length, toList_chars_ofString,
    ← Text.utf8ByteSize_ofList, String.ofList_toList]

theorem offset_mono (l : Line) {i j : Nat} (order : i ≤ j) : l.offset i ≤ l.offset j := by
  obtain ⟨more, rfl⟩ := Nat.exists_eq_add_of_le order
  rw [offset_eq, offset_eq, List.take_add, Text.byteLength_append]
  exact Nat.le_add_right _ _

theorem offset_lt (l : Line) {i j : Nat} (before : i < j) (inside : i < l.size) :
    l.offset i < l.offset j := by
  have bound : i < l.chars.toList.length := by simpa [size] using inside
  have one : l.offset i < l.offset (i + 1) := by
    have bytes := l.chars.toList[i].utf8Size_pos
    rw [offset_eq, offset_eq, List.take_succ_eq_append_getElem bound, Text.byteLength_append,
      Text.byteLength_cons]
    omega
  exact Nat.lt_of_lt_of_le one (l.offset_mono before)

theorem text_append (l : Line) {i j k : Nat} (first : i ≤ j) (second : j ≤ k) :
    l.text i j ++ l.text j k = l.text i k := by
  obtain ⟨m, rfl⟩ := Nat.exists_eq_add_of_le first
  obtain ⟨n, rfl⟩ := Nat.exists_eq_add_of_le second
  have sum : i + m + n - i = m + n := by omega
  rw [text_eq, text_eq, text_eq, sum, List.take_add, List.drop_drop, String.ofList_append,
    Nat.add_sub_cancel_left, Nat.add_sub_cancel_left]

theorem text_all (text : String) : (ofString text).text 0 (ofString text).size = text := by
  rw [text_eq, size, ← Array.length_toList, List.drop_zero, Nat.sub_zero, List.take_length,
    toList_chars_ofString, String.ofList_toList]

theorem slice_text (text : String) {i j : Nat} (order : i ≤ j) (inside : j ≤ (ofString text).size) :
    Slice text ((ofString text).span i j) ((ofString text).text i j) := by
  have upTo (j : Nat) : ((ofString text).text 0 j).utf8ByteSize = (ofString text).offset j := by
    rw [text_eq, List.drop_zero, Nat.sub_zero, Text.utf8ByteSize_ofList, offset_eq]
  have before := text_append (ofString text) (Nat.zero_le i) order
  refine ⟨(ofString text).text 0 i, (ofString text).text j (ofString text).size, ?_, upTo i, ?_⟩
  · rw [before, text_append _ (Nat.zero_le j) inside, text_all]
  · rw [before]
    exact upTo j

end Line

end StackLexer
