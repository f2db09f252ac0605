import StackLexer.Proofs.Lexing.Run
import StackLexer.Proofs.Text.Slice

/-! The tokens of a line cover it.
Each step of a scan cuts pieces that lie one after the other from the position before the step to
the position after it, whichever of its three ways it takes: the text of a rule, the groups of a
match with the gaps between them, or a single character. So the pieces of a scan cover the line, and
joining unmatched pieces or counting bytes instead of characters changes nothing in that. -/

namespace StackLexer

/-- Ranges that lie one after the other from `start` to `stop`. -/
def Tiles (start : Nat) : List (Nat × Nat) → Nat → Prop
  | [], stop => start = stop
  | (first, last) :: rest, stop => first = start ∧ first ≤ last ∧ Tiles last rest stop

theorem Tiles.append {start middle stop : Nat} {ranges others : List (Nat × Nat)}
    (tiles : Tiles start ranges middle) (more : Tiles middle others stop) :
    Tiles start (ranges ++ others) stop := by
  induction ranges generalizing start with
  | nil =>
    obtain rfl : start = middle := tiles
    exact more
  | cons range rest ih =>
    obtain ⟨first, order, tail⟩ := tiles
    exact ⟨first, order, ih tail⟩

theorem Tiles.le {start stop : Nat} {ranges : List (Nat × Nat)} (tiles : Tiles start ranges stop) :
    start ≤ stop := by
  induction ranges generalizing start with
  | nil => exact Nat.le_of_eq tiles
  | cons range rest ih =>
    obtain ⟨rfl, order, tail⟩ := tiles
    exact Nat.le_trans order (ih tail)

theorem Tiles.map {start stop : Nat} {ranges : List (Nat × Nat)} (tiles : Tiles start ranges stop)
    {f : Nat → Nat} (mono : ∀ i j, i ≤ j → f i ≤ f j) :
    Tiles (f start) (ranges.map (fun r => (f r.1, f r.2))) (f stop) := by
  induction ranges generalizing start with
  | nil => exact congrArg f tiles
  | cons range rest ih =>
    obtain ⟨rfl, order, tail⟩ := tiles
    exact ⟨rfl, mono _ _ order, ih tail⟩

theorem Tiles.range_bounds {start stop : Nat} {ranges : List (Nat × Nat)}
    (tiles : Tiles start ranges stop) {range : Nat × Nat} (member : range ∈ ranges) :
    range.1 ≤ range.2 ∧ range.2 ≤ stop := by
  induction ranges generalizing start with
  | nil => simp at member
  | cons head rest ih =>
    obtain ⟨rfl, order, tail⟩ := tiles
    rcases List.mem_cons.mp member with rfl | inside
    · exact ⟨order, tail.le⟩
    · exact ih tail inside

theorem Tiles.start_le {start stop : Nat} {ranges : List (Nat × Nat)}
    (tiles : Tiles start ranges stop) {range : Nat × Nat} (member : range ∈ ranges) :
    start ≤ range.1 := by
  induction ranges generalizing start with
  | nil => simp at member
  | cons head rest ih =>
    obtain ⟨rfl, order, tail⟩ := tiles
    rcases List.mem_cons.mp member with rfl | inside
    · exact Nat.le_refl _
    · exact Nat.le_trans order (ih tail inside)

theorem Tiles.covers {start stop p : Nat} {ranges : List (Nat × Nat)}
    (tiles : Tiles start ranges stop) (lower : start ≤ p) (upper : p < stop) :
    ∃ range ∈ ranges, range.1 ≤ p ∧ p < range.2 := by
  induction ranges generalizing start with
  | nil =>
    obtain rfl : start = stop := tiles
    omega
  | cons head rest ih =>
    obtain ⟨rfl, order, tail⟩ := tiles
    by_cases here : p < head.2
    · exact ⟨head, List.mem_cons_self, lower, here⟩
    · obtain ⟨range, member, holds⟩ := ih tail (Nat.not_lt.mp here)
      exact ⟨range, List.mem_cons_of_mem _ member, holds⟩

namespace Piece

def extent (p : Piece) : Nat × Nat := (p.start, p.stop)

theorem clamp_bounds {low high : Nat} (order : low ≤ high) (n : Nat) :
    low ≤ clamp n low high ∧ clamp n low high ≤ high := by
  unfold clamp
  split
  · exact ⟨Nat.le_refl low, order⟩
  · split <;> omega

theorem tiles_ofGroups (gap : String) {stop cursor : Nat} (inside : cursor ≤ stop)
    (groups : List (String × Option (Nat × Nat))) :
    Tiles cursor ((ofGroups gap stop cursor groups).map extent) stop := by
  induction groups generalizing cursor with
  | nil =>
    simp only [ofGroups]
    split
    · exact ⟨rfl, inside, rfl⟩
    · rename_i full
      exact Nat.le_antisymm inside (Nat.le_of_not_lt full)
  | cons group rest ih =>
    obtain ⟨kind, text⟩ := group
    cases text with
    | none => exact ⟨rfl, Nat.le_refl cursor, ih inside⟩
    | some text =>
      obtain ⟨first, last⟩ := text
      obtain ⟨after, before⟩ := clamp_bounds inside first
      obtain ⟨order, within⟩ := clamp_bounds before last
      simp only [ofGroups]
      split
      · exact ⟨rfl, after, rfl, order, ih within⟩
      · rename_i atCursor
        exact ⟨Nat.le_antisymm (Nat.le_of_not_lt atCursor) after, order, ih within⟩

theorem tiles_ofMatch (tokens : TokenSpec) (m : Match) (gap : String) :
    Tiles m.start ((ofMatch tokens m gap).map extent) m.stop := by
  cases tokens with
  | single kind => exact ⟨rfl, m.start_le_stop, rfl⟩
  | groups kinds => exact tiles_ofGroups gap m.start_le_stop _

theorem tiles_join {start stop : Nat} {pieces : List Piece}
    (tiles : Tiles start (pieces.map extent) stop) : Tiles start ((join pieces).map extent) stop := by
  induction pieces generalizing start with
  | nil => exact tiles
  | cons p rest ih =>
    obtain ⟨first, order, tail⟩ := tiles
    have tail := ih tail
    simp only [join]
    split
    · rename_i none_
      rw [none_] at tail
      exact ⟨first, order, tail⟩
    · rename_i next more some_
      rw [some_] at tail
      split
      · obtain ⟨goesOn, later, tail⟩ := tail
        exact ⟨first, Nat.le_trans order (goesOn ▸ later), tail⟩
      · exact ⟨first, order, tail⟩

theorem join_texts (line : Line) {start stop : Nat} {pieces : List Piece}
    (tiles : Tiles start (pieces.map extent) stop) :
    String.join (pieces.map (fun p => line.text p.start p.stop)) = line.text start stop := by
  induction pieces generalizing start with
  | nil =>
    obtain rfl : start = stop := tiles
    simp [Line.text_eq]
  | cons p rest ih =>
    obtain ⟨first, order, tail⟩ := tiles
    simp only [List.map_cons, String.join_cons, ih tail]
    rw [← first]
    exact line.text_append order tail.le

end Piece

namespace Tokenizer

variable {t : Tokenizer} {line : Line} {c d : Cursor} {steps : List Step}

theorem tiles_step (t : Tokenizer) (line : Line) (c : Cursor) :
    Tiles c.position ((t.step line c).1.pieces.map Piece.extent) (t.step line c).2.position := by
  cases found : t.matchAt? line c with
  | none =>
    rw [step_of_none found]
    split <;> exact ⟨rfl, Nat.le_succ c.position, rfl⟩
  | some match_ =>
    obtain ⟨rule, m⟩ := match_
    obtain ⟨_, matched, _⟩ := Lexicon.State.firstMatch?_eq_some found
    rw [step_of_match found, ← (Pattern.bounds _ matched).1]
    exact Piece.tiles_ofMatch rule.tokens m _

theorem Run.tiles (run : t.Run line c steps d) :
    Tiles c.position ((steps.flatMap Step.pieces).map Piece.extent) d.position := by
  induction run with
  | refl c => rfl
  | @cons c d steps before rest ih =>
    rw [List.flatMap_cons, List.map_append]
    exact (tiles_step t line c).append ih

theorem Run.position_le (run : t.Run line c steps d) (inside : c.position ≤ line.size) :
    d.position ≤ line.size :=
  run.invariant (fun c => c.position ≤ line.size) inside
    (fun _ before _ => (step_position_le before).2)

theorem tiles_scan (t : Tokenizer) (stack : Stack) (line : Line) :
    Tiles 0 (((t.scan stack line).steps.flatMap Step.pieces).map Piece.extent) line.size := by
  obtain ⟨d, run, beyond, _⟩ := t.run_scan stack line
  have whole := Nat.le_antisymm (run.position_le (Nat.zero_le _)) beyond
  exact whole ▸ run.tiles

/-- The tokens of a line lie one after the other from its first byte to its last, each has the text
at its span, and together they are the line. Only the empty line has no tokens. -/
theorem line_tokens_cover (t : Tokenizer) (stack : Stack) (text : String) :
    let tokens := (t.line stack text).tokens
    Tiles 0 (tokens.map (fun token => (token.span.start, token.span.stop))) text.utf8ByteSize ∧
      (tokens = [] → text = "") ∧
      (∀ token ∈ tokens, Slice text token.span token.value) ∧
      Token.detokenize tokens = text := by
  have tiles := t.tiles_scan stack (.ofString text)
  have joined : ∃ pieces : List Piece, (t.line stack text).tokens =
      pieces.map (Piece.token (.ofString text)) ∧
      Tiles 0 (pieces.map Piece.extent) (Line.ofString text).size := by
    simp only [line, Scan.tokens]
    split
    · exact ⟨_, rfl, Piece.tiles_join tiles⟩
    · exact ⟨_, rfl, tiles⟩
  obtain ⟨pieces, tokens_eq, tiles⟩ := joined
  have bytes := tiles.map (fun i j => (Line.ofString text).offset_mono)
  rw [Line.offset_zero, Line.offset_size] at bytes
  have whole : Token.detokenize (t.line stack text).tokens = text := by
    rw [tokens_eq, Token.detokenize, List.map_map]
    exact (Piece.join_texts (.ofString text) tiles).trans (Line.text_all text)
  refine ⟨?_, ?_, ?_, whole⟩
  · simpa [tokens_eq, Function.comp_def, Piece.extent, Piece.token, Line.span] using bytes
  · intro none_
    rw [← whole, none_]
    rfl
  · intro token member
    rw [tokens_eq] at member
    obtain ⟨p, inside, rfl⟩ := List.mem_map.mp member
    obtain ⟨order, bound⟩ := tiles.range_bounds (List.mem_map_of_mem inside)
    exact Line.slice_text text order bound

end Tokenizer

end StackLexer
