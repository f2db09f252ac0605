import Mathlib.Data.List.SplitBy
import StackLexer.Lexing.Session

/-! Where a document may be cut.
A text has a line for what stands before each of its line feeds, and one more if anything stands after the
last of them. So the lines of two texts that are put together are those of the one and of the other, unless
the first text stops within a line that the second one goes on with. A session that gets the texts one after
the other then yields what it yields for both at once, and is left as it is left by both. -/

namespace StackLexer

namespace Text

/-- The lines of the pieces that stand between line feeds. What is before a line feed loses a carriage
return at its end, and after the last line feed nothing is no line. -/
def ofPieces (pieces : List (List Char)) : List (List Char) :=
  pieces.dropLast.map dropReturn ++ pieces.getLast?.toList.filter (· ≠ [])

theorem ofPieces_append {pieces others : List (List Char)} (some_ : others ≠ []) :
    ofPieces (pieces ++ others) = pieces.map dropReturn ++ ofPieces others := by
  have last : (pieces ++ others).getLast? = others.getLast? := by
    rw [List.getLast?_append, List.getLast?_eq_some_getLast some_, Option.some_or]
  rw [ofPieces, ofPieces, last, List.dropLast_append_of_ne_nil some_, List.map_append,
    List.append_assoc]

theorem linesFrom_eq_ofPieces {current text : List Char} (inside : '\n' ∉ current) :
    linesFrom current text = ofPieces ((current.reverse ++ text).splitOn '\n') := by
  have inside' : '\n' ∉ current.reverse := fun member => inside (List.mem_reverse.mp member)
  induction text generalizing current with
  | nil =>
    rw [linesFrom, List.append_nil, List.splitOn_eq_singleton inside']
    cases current with
    | nil => rfl
    | cons c rest => simp [ofPieces]
  | cons c rest ih =>
    rw [linesFrom]
    split
    · rename_i feed
      subst feed
      have others := ih List.not_mem_nil List.not_mem_nil
      have first : ofPieces ([current.reverse] ++ rest.splitOn '\n') = _ :=
        ofPieces_append (List.splitOn_ne_nil '\n' rest)
      rw [List.splitOn_append_cons_self_of_not_mem inside', others]
      exact first.symm
    · rename_i other
      have fresh : '\n' ∉ c :: current := by
        simp only [List.mem_cons, not_or]
        exact ⟨Ne.symm other, inside⟩
      rw [ih fresh (fun member => fresh (List.mem_reverse.mp member)), List.reverse_cons,
        List.append_assoc, List.singleton_append]

theorem lines_eq_ofPieces (text : String) :
    lines text = (ofPieces (text.toList.splitOn '\n')).map String.ofList := by
  rw [lines, linesFrom_eq_ofPieces List.not_mem_nil]
  rfl

example : lines "a\r\n\nb\r" = ["a", "", "b\r"] := by cbv

theorem lines_append_of_feed (front b : String) :
    lines (front ++ "\n" ++ b) = lines (front ++ "\n") ++ lines b := by
  have feed (rest : List Char) : ofPieces ((front.toList ++ '\n' :: rest).splitOn '\n') =
      (front.toList.splitOn '\n').map dropReturn ++ ofPieces (rest.splitOn '\n') := by
    rw [List.splitOn_append_cons_self]
    exact ofPieces_append (List.splitOn_ne_nil '\n' rest)
  have nothing : ofPieces (([] : List Char).splitOn '\n') = [] := rfl
  have whole : (front ++ "\n" ++ b).toList = front.toList ++ '\n' :: b.toList := by simp
  have first : (front ++ "\n").toList = front.toList ++ '\n' :: [] := by simp
  rw [lines_eq_ofPieces, lines_eq_ofPieces, lines_eq_ofPieces, whole, first, feed, feed, nothing,
    List.append_nil, List.map_append]

def stopsInside (text : List Char) : Bool := text.getLast?.any (· ≠ '\n')

theorem stopsInside_append {text others : List Char} (some_ : others ≠ []) :
    stopsInside (text ++ others) = stopsInside others := by
  rw [stopsInside, stopsInside, List.getLast?_append, List.getLast?_eq_some_getLast some_,
    Option.some_or]

theorem stopsInside_feed (text rest : List Char) :
    stopsInside (text ++ '\n' :: rest) = stopsInside rest := by
  rw [stopsInside_append (List.cons_ne_nil _ _)]
  cases rest with
  | nil => rfl
  | cons c rest =>
    have feed : stopsInside (['\n'] ++ c :: rest) = _ := stopsInside_append (List.cons_ne_nil c rest)
    exact feed

theorem length_linesFrom {current text : List Char} (inside : '\n' ∉ current) :
    (linesFrom current text).length =
      text.count '\n' + (stopsInside (current.reverse ++ text)).toNat := by
  induction text generalizing current with
  | nil =>
    rw [linesFrom]
    cases current with
    | nil => rfl
    | cons c rest =>
      have other : c ≠ '\n' := fun feed => inside (feed ▸ List.mem_cons_self)
      simp [stopsInside, other]
  | cons c rest ih =>
    rw [linesFrom]
    split
    · rename_i feed
      subst feed
      have others := ih List.not_mem_nil
      rw [List.reverse_nil, List.nil_append] at others
      rw [List.length_cons, others, stopsInside_feed, List.count_cons_self]
      omega
    · rename_i other
      have fresh : '\n' ∉ c :: current := by
        simp only [List.mem_cons, not_or]
        exact ⟨Ne.symm other, inside⟩
      rw [ih fresh, List.reverse_cons, List.append_assoc, List.singleton_append,
        List.count_cons_of_ne other]

theorem length_lines (text : String) :
    (lines text).length = text.toList.count '\n' + (stopsInside text.toList).toNat := by
  rw [lines, List.length_map, length_linesFrom List.not_mem_nil, List.reverse_nil, List.nil_append]

/-- A text that stops within a line and one that goes on with the line have a line less together. -/
theorem cut_of_length {a b : String}
    (same : (lines (a ++ b)).length = (lines a).length + (lines b).length) :
    a = "" ∨ (∃ front, a = front ++ "\n") ∨ b = "" := by
  by_cases none_ : b = ""
  · exact .inr (.inr none_)
  · have some_ : b.toList ≠ [] := fun empty => none_ (String.toList_eq_nil_iff.mp empty)
    rw [length_lines, length_lines, length_lines, String.toList_append, List.count_append,
      stopsInside_append some_] at same
    have outside : (stopsInside a.toList).toNat = 0 := by omega
    rcases List.eq_nil_or_concat a.toList with empty | ⟨front, c, split⟩
    · exact .inl (String.toList_eq_nil_iff.mp empty)
    · rw [split] at outside
      have feed : c = '\n' := by simpa [stopsInside] using outside
      subst feed
      refine .inr (.inl ⟨String.ofList front, ?_⟩)
      apply String.toList_injective
      rw [split]
      simp

end Text

namespace Session

theorem length_lines (s : Session) (texts : List String) : (s.lines texts).1.length = texts.length := by
  induction texts generalizing s with
  | nil => rfl
  | cons text rest ih => exact congrArg Nat.succ (ih _)

theorem lines_append (s : Session) (texts more : List String) :
    s.lines (texts ++ more) =
      ((s.lines texts).1 ++ ((s.lines texts).2.1.lines more).1,
        ((s.lines texts).2.1.lines more).2.1,
        (s.lines texts).2.2 ++ ((s.lines texts).2.1.lines more).2.2) := by
  induction texts generalizing s with
  | nil => rfl
  | cons text rest ih => simp only [List.cons_append, lines, ih, List.append_assoc]

/-- The lines of a text are those of its pieces between line feeds. A session in whatever state takes a text
as it takes two parts of it in turn, with the same tokens for each line, the same session after it and the
same events, just when the cut is not within a line. -/
theorem document_cut_iff :
    (∀ text, Text.lines text = (Text.ofPieces (text.toList.splitOn '\n')).map String.ofList) ∧
      ∀ (s : Session) (a b : String),
        let (first, between, events) := s.document a
        let (second, after, more) := between.document b
        s.document (a ++ b) = (first ++ second, after, events ++ more) ↔
          a = "" ∨ (∃ front, a = front ++ "\n") ∨ b = "" := by
  refine ⟨Text.lines_eq_ofPieces, fun s a b => ?_⟩
  dsimp only
  constructor
  · intro same
    have lengths := congrArg (fun answer => answer.1.length) same
    simp only [document, List.length_append, length_lines] at lengths
    exact Text.cut_of_length lengths
  · intro cut
    have lines : Text.lines (a ++ b) = Text.lines a ++ Text.lines b := by
      rcases cut with rfl | ⟨front, rfl⟩ | rfl
      · rw [String.empty_append]
        rfl
      · exact Text.lines_append_of_feed front b
      · rw [String.append_empty]
        exact (List.append_nil _).symm
    rw [document, lines, lines_append]
    rfl

end Session

end StackLexer
