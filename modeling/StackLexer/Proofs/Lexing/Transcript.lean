import Mathlib
import StackLexer.Proofs.Lexing.History
import StackLexer.Proofs.Lexing.Tiling

/-! What a session gives out for a document.
Line by line it gives out the tokens of the line, each scanned from the stack that the lines before it have
left. The texts of the tokens make up the line, and no number in them or of a line exceeds the bytes of the
document. The stalls are counted over all lines. -/

namespace StackLexer

namespace Text

theorem length_le_byteLength (cs : List Char) : cs.length ≤ byteLength cs := by
  induction cs with
  | nil => exact Nat.le_refl 0
  | cons c rest ih =>
    have bytes := c.utf8Size_pos
    rw [List.length_cons, byteLength_cons]
    omega

theorem byteLength_le_of_sublist {cs ds : List Char} (within : cs.Sublist ds) :
    byteLength cs ≤ byteLength ds := by
  induction within with
  | slnil => exact Nat.le_refl 0
  | cons c _ ih => exact ih.trans (Nat.le_add_left _ _)
  | cons_cons c _ ih => exact Nat.add_le_add_left ih c.utf8Size

theorem byteLength_reverse (cs : List Char) : byteLength cs.reverse = byteLength cs := by
  induction cs with
  | nil => rfl
  | cons c rest ih => simp [ih, Nat.add_comm]

theorem length_linesFrom_le (current text : List Char) :
    (linesFrom current text).length ≤ current.length + text.length := by
  -- A line feed pays for the line that it ends, and a character for the line that nothing ends.
  fun_induction linesFrom current text with
  | case1 => exact Nat.zero_le _
  | case2 current some_ =>
    have pos : 0 < current.length := List.length_pos_iff.mpr (by simpa using some_)
    exact pos
  | case3 current rest ih =>
    simp only [List.length_cons, List.length_nil] at ih ⊢
    omega
  | case4 current c rest _ ih =>
    simp only [List.length_cons] at ih ⊢
    omega

theorem byteLength_le_of_mem_linesFrom (current text : List Char) :
    ∀ line ∈ linesFrom current text, byteLength line ≤ byteLength current + byteLength text := by
  have dropped (line : List Char) : byteLength (dropReturn line.reverse) ≤ byteLength line := by
    rw [← byteLength_reverse line, dropReturn]
    split
    · exact byteLength_le_of_sublist (List.dropLast_sublist _)
    · exact Nat.le_refl _
  fun_induction linesFrom current text with
  | case1 => simp
  | case2 current _ => simp [byteLength_reverse]
  | case3 current rest ih =>
    refine List.forall_mem_cons.mpr ⟨(dropped current).trans (Nat.le_add_right _ _), fun line inside => ?_⟩
    have later := ih line inside
    simp only [byteLength_nil, byteLength_cons] at later ⊢
    omega
  | case4 current c rest _ ih =>
    intro line inside
    have later := ih line inside
    simp only [byteLength_cons] at later ⊢
    omega

theorem length_lines_le (text : String) : (lines text).length ≤ text.utf8ByteSize := by
  have count := length_linesFrom_le [] text.toList
  have bytes := length_le_byteLength text.toList
  rw [← utf8ByteSize_ofList, String.ofList_toList] at bytes
  rw [lines, List.length_map]
  simp only [List.length_nil] at count
  omega

theorem utf8ByteSize_le_of_mem_lines {text line : String} (member : line ∈ lines text) :
    line.utf8ByteSize ≤ text.utf8ByteSize := by
  obtain ⟨cs, inside, rfl⟩ := List.mem_map.mp member
  have bytes := byteLength_le_of_mem_linesFrom [] text.toList cs inside
  rw [← utf8ByteSize_ofList, ← utf8ByteSize_ofList text.toList, String.ofList_toList] at bytes
  simpa using bytes

end Text

namespace Tokenizer

variable {t : Tokenizer} {stack : Stack}

/-- The pieces that the tokens of a line are made of cover the line, be they joined or not. -/
theorem exists_pieces (t : Tokenizer) (stack : Stack) (text : String) :
    ∃ pieces : List Piece, (t.line stack text).tokens = pieces.map (Piece.token (.ofString text)) ∧
      Tiles 0 (pieces.map Piece.extent) (Line.ofString text).size := by
  have tiles := t.tiles_scan stack (.ofString text)
  simp only [line, Scan.tokens]
  split
  · exact ⟨_, rfl, Piece.tiles_join tiles⟩
  · exact ⟨_, rfl, tiles⟩

theorem detokenize_line (t : Tokenizer) (stack : Stack) (text : String) :
    Token.detokenize (t.line stack text).tokens = text := by
  obtain ⟨pieces, made, tiles⟩ := t.exists_pieces stack text
  rw [made, Token.detokenize, List.map_map]
  exact (Piece.join_texts (.ofString text) tiles).trans (Line.text_all text)

theorem span_le {text : String} {token : Token} (member : token ∈ (t.line stack text).tokens) :
    token.span.start ≤ text.utf8ByteSize ∧ token.span.stop ≤ text.utf8ByteSize := by
  obtain ⟨pieces, made, tiles⟩ := t.exists_pieces stack text
  obtain ⟨p, inside, rfl⟩ := List.mem_map.mp (made ▸ member)
  obtain ⟨order, bound⟩ := tiles.range_bounds (List.mem_map_of_mem inside)
  rw [← Line.offset_size]
  exact ⟨Line.offset_mono _ (order.trans bound), Line.offset_mono _ bound⟩

theorem getElem?_lines (t : Tokenizer) (stack : Stack) (texts : List String) (i : Nat) :
    (t.lines stack texts)[i]? =
      texts[i]?.map (fun text => t.line (t.stackAfter stack (texts.take i)) text) := by
  induction texts generalizing stack i with
  | nil => rfl
  | cons text rest ih =>
    cases i with
    | zero => rfl
    | succ i =>
      rw [lines, List.getElem?_cons_succ, List.getElem?_cons_succ, ih]
      rfl

/-- The number of characters of some lines that no rule and no default token claims. -/
def stalledIn (t : Tokenizer) (stack : Stack) : List String → Nat
  | [] => 0
  | text :: rest =>
    (t.visits (.ofString text) ⟨0, stack, 0⟩).countP (t.stalls (.ofString text)) +
      t.stalledIn (t.line stack text).stack rest

theorem stalls_lines (t : Tokenizer) (stack : Stack) (texts : List String) :
    ((t.lines stack texts).map (fun out => out.counts.stalls)).sum = t.stalledIn stack texts := by
  induction texts generalizing stack with
  | nil => rfl
  | cons text rest ih =>
    rw [lines, List.map_cons, List.sum_cons, ih, stalledIn, counts_line, countsOf_eq]

end Tokenizer

namespace Session

theorem tokens_lines (s : Session) (texts : List String) :
    (s.lines texts).1 = (s.tokenizer.lines s.stack texts).map (·.tokens) := by
  induction texts generalizing s with
  | nil => rfl
  | cons text rest ih => exact congrArg (_ :: ·) (ih _)

theorem document_withStack (t : Tokenizer) (stack : Stack) (text : String) :
    ((withStack t stack).document text).1 = (t.lines stack (Text.lines text)).map (·.tokens) ∧
      ((withStack t stack).document text).2.1.totals.counts.stalls =
        t.stalledIn stack (Text.lines text) := by
  have new : After t stack [] (withStack t stack) := ⟨rfl, rfl, rfl, rfl⟩
  have totals := congrArg (fun totals => totals.counts.stalls) (new.lines (Text.lines text)).totals
  exact ⟨tokens_lines _ _, totals.trans (t.stalls_lines stack (Text.lines text))⟩

end Session

end StackLexer
