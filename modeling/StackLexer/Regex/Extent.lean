import StackLexer.Regex.Matching

/-! How far a match reaches.
The matcher only goes forward: what it answers is the answer of what follows, asked at a later
position of the line. So a match ends in the line and not before its start, and the texts of its
groups lie in the line. -/

namespace StackLexer.Regex

def Captures.Inside (size : Nat) (captures : Captures) : Prop :=
  ∀ (g first last : Nat), captures[g]? = some (some (first, last)) → first ≤ last ∧ last ≤ size

/-- `found` is what `next` answers at some position of the line that is not before `i`. -/
def Later (size i : Nat) (next : Continuation) (found : Found) : Prop :=
  ∃ (j : Nat) (captures : Captures),
    i ≤ j ∧ j ≤ size ∧ captures.Inside size ∧ next j captures = some found

/-- An answer of `body` is an answer of what follows, at a position not before the one asked. -/
def Forward (size : Nat) (body : Nat → Captures → Continuation → Option Found) : Prop :=
  ∀ (i : Nat) (captures : Captures) (next : Continuation) (found : Found),
    i ≤ size → captures.Inside size → body i captures next = some found →
    Later size i next found

theorem inside_replicate (size count : Nat) :
    Captures.Inside size (Array.replicate count none) := by
  intro g first last text
  simp [Array.getElem?_replicate] at text

theorem Captures.Inside.forget {size : Nat} {captures : Captures} (inside : captures.Inside size)
    (index : Nat) : Captures.Inside size (captures.setIfInBounds index none) := by
  intro g first last text
  rw [Array.getElem?_setIfInBounds] at text
  split at text
  · split at text <;> simp at text
  · exact inside g first last text

theorem Captures.Inside.record {size : Nat} {captures : Captures} (inside : captures.Inside size)
    (index : Nat) {i j : Nat} (order : i ≤ j) (bound : j ≤ size) :
    Captures.Inside size (captures.setIfInBounds index (some (i, j))) := by
  intro g first last text
  rw [Array.getElem?_setIfInBounds] at text
  split at text
  · split at text
    · simp only [Option.some.injEq, Prod.mk.injEq] at text
      exact ⟨text.1 ▸ text.2 ▸ order, text.2 ▸ bound⟩
    · simp at text
  · exact inside g first last text

namespace Subject

theorem char_inside {s : Subject} {i : Nat} {c : Char} (char : s.chars[i]? = some c) :
    i < s.chars.size :=
  (Array.getElem?_eq_some_iff.mp char).1

theorem literal?_bounds {s : Subject} {text : List Char} {i j : Nat} (inside : i ≤ s.chars.size)
    (h : s.literal? i text = some j) : i ≤ j ∧ j ≤ s.chars.size := by
  induction text generalizing i with
  | nil =>
    simp only [literal?, Option.some.injEq] at h
    omega
  | cons c rest ih =>
    simp only [literal?] at h
    split at h
    · rename_i char
      have bound := char_inside char
      have later := ih bound h
      omega
    · simp at h

theorem folded?_bounds {s : Subject} {target carry : List Char} {i j : Nat}
    (inside : i ≤ s.chars.size) (h : s.folded? i carry target = some j) :
    i ≤ j ∧ j ≤ s.chars.size := by
  induction target generalizing i carry with
  | nil =>
    simp only [folded?] at h
    split at h
    · simp only [Option.some.injEq] at h
      omega
    · simp at h
  | cons c rest ih =>
    cases carry with
    | cons d carry =>
      simp only [folded?] at h
      split at h
      · exact ih inside h
      · simp at h
    | nil =>
      simp only [folded?] at h
      split at h
      · rename_i d carry folded
        obtain ⟨char, at_, _⟩ := Option.map_eq_some_iff.mp folded
        have bound := char_inside at_
        split at h
        · have later := ih bound h
          omega
        · simp at h
      · simp at h

theorem text?_bounds {s : Subject} {text : List Char} {caseless : Bool} {i j : Nat}
    (inside : i ≤ s.chars.size) (h : s.text? i text caseless = some j) :
    i ≤ j ∧ j ≤ s.chars.size := by
  unfold text? at h
  split at h
  · exact folded?_bounds inside h
  · exact literal?_bounds inside h

theorem captured?_bounds {s : Subject} {captures : Captures} {caseless : Bool} {groups : List Nat}
    {i j : Nat} (inside : i ≤ s.chars.size)
    (h : s.captured? i captures caseless groups = some j) : i ≤ j ∧ j ≤ s.chars.size := by
  obtain ⟨g, _, h⟩ := List.exists_of_findSome?_eq_some h
  split at h
  · exact text?_bounds inside h
  · simp at h

end Subject

section Repeating

variable {size : Nat} {body : Nat → Captures → Continuation → Option Found}

theorem Later.here {i : Nat} {captures : Captures} {next : Continuation} {found : Found}
    (bound : i ≤ size) (inside : captures.Inside size) (h : next i captures = some found) :
    Later size i next found :=
  ⟨i, captures, Nat.le_refl i, bound, inside, h⟩

theorem Forward.andThen {i : Nat} {captures : Captures} {rest next : Continuation} {found : Found}
    (forward : Forward size body) (bound : i ≤ size) (inside : captures.Inside size)
    (goesOn : ∀ (j : Nat) (after : Captures), j ≤ size → after.Inside size →
      rest j after = some found → Later size j next found)
    (h : body i captures rest = some found) : Later size i next found := by
  obtain ⟨j, after, le, fits, within, h⟩ := forward i captures rest found bound inside h
  obtain ⟨k, last, further, h⟩ := goesOn j after fits within h
  exact ⟨k, last, Nat.le_trans le further, h⟩

theorem forward_exactly (forward : Forward size body) (count : Nat) :
    Forward size (exactly body count) := by
  induction count with
  | zero =>
    intro i captures next found bound inside h
    exact .here bound inside h
  | succ count ih =>
    intro i captures next found bound inside h
    exact forward.andThen bound inside
      (fun j after fits within h => ih j after next found fits within h) h

theorem forward_atMost (forward : Forward size body) (greedy : Bool) (count : Nat) :
    Forward size (atMost greedy body count) := by
  induction count with
  | zero =>
    intro i captures next found bound inside h
    exact .here bound inside h
  | succ count ih =>
    intro i captures next found bound inside h
    have round (h : body i captures (fun j after => atMost greedy body count j after next) =
        some found) : Later size i next found :=
      forward.andThen bound inside
        (fun j after fits within h => ih j after next found fits within h) h
    simp only [atMost] at h
    split at h <;> rcases Option.or_eq_some_iff.mp h with h | ⟨_, h⟩
    · exact round h
    · exact .here bound inside h
    · exact .here bound inside h
    · exact round h

theorem forward_star (forward : Forward size body) (greedy : Bool) :
    Forward size (star size greedy body) := by
  intro i captures next found bound inside h
  -- The rounds end because each but the last leaves less of the line.
  induction left : size - i using Nat.strongRecOn generalizing i captures with
  | ind left ih =>
    have round (h : body i captures (fun j after =>
        if size - j < size - i then star size greedy body j after next else next j after) =
        some found) : Later size i next found := by
      refine forward.andThen bound inside (fun j after fits within h => ?_) h
      split at h
      · rename_i less
        exact ih (size - j) (left ▸ less) j after fits within h rfl
      · exact .here fits within h
    unfold star at h
    simp only at h
    split at h <;> rcases Option.or_eq_some_iff.mp h with h | ⟨_, h⟩
    · exact round h
    · exact .here bound inside h
    · exact .here bound inside h
    · exact round h

end Repeating

section Looking

variable {s : Subject} {body : Node}

theorem forward_atomic (ih : Forward s.chars.size (body.run s)) :
    Forward s.chars.size ((Node.atomic body).run s) := by
  intro i captures next found bound inside h
  simp only [Node.run] at h
  split at h
  · rename_i inner matched
    obtain ⟨j, after, le, fits, within, same⟩ := ih i captures _ inner bound inside matched
    obtain rfl := Option.some.inj same
    exact ⟨j, after, le, fits, within, h⟩
  · simp at h

theorem forward_ahead (ih : Forward s.chars.size (body.run s)) (negated : Bool) :
    Forward s.chars.size ((Node.ahead negated body).run s) := by
  intro i captures next found bound inside h
  simp only [Node.run] at h
  split at h
  · rename_i inner matched
    obtain ⟨j, after, _, _, within, same⟩ := ih i captures _ inner bound inside matched
    obtain rfl := Option.some.inj same
    split at h
    · simp at h
    · exact .here bound within h
  · split at h
    · exact .here bound inside h
    · simp at h

theorem forward_behind (ih : Forward s.chars.size (body.run s)) (negated : Bool) :
    Forward s.chars.size ((Node.behind negated body).run s) := by
  intro i captures next found bound inside h
  have before {j width : Nat} {starts : Nat}
      (start : j ∈ (List.range starts).map (fun d => i - (width + d))) : j ≤ s.chars.size := by
    obtain ⟨d, _, rfl⟩ := List.mem_map.mp start
    omega
  -- What ends at `i` has only its captures to give.
  have ended {inner : Found} {starts : List Nat} (inLine : ∀ j ∈ starts, j ≤ s.chars.size)
      (matched : starts.findSome? (fun j => body.run s j captures
        (fun j captures => if j = i then some ⟨j, captures⟩ else none)) = some inner) :
      inner.captures.Inside s.chars.size := by
    obtain ⟨j, start, matched⟩ := List.exists_of_findSome?_eq_some matched
    obtain ⟨k, after, _, _, within, same⟩ := ih j captures _ inner (inLine j start) inside matched
    dsimp only at same
    split at same
    · obtain rfl := Option.some.inj same
      exact within
    · simp at same
  simp only [Node.run] at h
  split at h
  · split at h
    · simp at h
    · exact .here bound inside h
  · split at h
    · obtain ⟨j, start, h⟩ := List.exists_of_findSome?_eq_some h
      obtain ⟨k, after, _, _, within, h⟩ := ih j captures _ found (before start) inside h
      dsimp only at h
      split at h
      · exact .here bound within h
      · simp at h
    · split at h
      · rename_i inner matched
        exact .here bound (ended (fun j => before) matched) h
      · simp at h

end Looking

/-- What a node matches ends in the line, not before the position it was asked for, and the texts of
its groups lie in the line. -/
theorem forward_run (s : Subject) (node : Node) : Forward s.chars.size (node.run s) := by
  induction node with
  | empty | keep =>
    intro i captures next found bound inside h
    exact .here bound inside h
  | literal text caseless =>
    intro i captures next found bound inside h
    simp only [Node.run] at h
    split at h
    · rename_i j text
      obtain ⟨le, fits⟩ := s.text?_bounds bound text
      exact ⟨j, captures, le, fits, inside, h⟩
    · simp at h
  | one set =>
    intro i captures next found bound inside h
    simp only [Node.run] at h
    split at h
    · rename_i c char
      split at h
      · exact ⟨i + 1, captures, Nat.le_succ i, s.char_inside char, inside, h⟩
      · simp at h
    · simp at h
  | anchor a =>
    intro i captures next found bound inside h
    simp only [Node.run] at h
    split at h
    · exact .here bound inside h
    · simp at h
  | backref groups caseless =>
    intro i captures next found bound inside h
    simp only [Node.run] at h
    split at h
    · rename_i j text
      obtain ⟨le, fits⟩ := s.captured?_bounds bound text
      exact ⟨j, captures, le, fits, inside, h⟩
    · simp at h
  | seq a b first second =>
    intro i captures next found bound inside h
    exact first.andThen bound inside
      (fun j after fits within h => second j after next found fits within h) h
  | alt a b first second =>
    intro i captures next found bound inside h
    simp only [Node.run] at h
    rcases Option.or_eq_some_iff.mp h with h | ⟨_, h⟩
    · exact first i captures next found bound inside h
    · exact second i captures next found bound inside h
  | capture index body ih =>
    intro i captures next found bound inside h
    simp only [Node.run] at h
    obtain ⟨j, after, le, fits, within, h⟩ :=
      ih i _ _ found bound (inside.forget index) h
    exact ⟨j, _, le, fits, within.record index le fits, h⟩
  | atomic body ih => exact forward_atomic ih
  | ahead negated body ih => exact forward_ahead ih negated
  | behind negated body ih => exact forward_behind ih negated
  | loop body least most greedy ih =>
    intro i captures next found bound inside h
    simp only [Node.run] at h
    refine (forward_exactly ih least).andThen bound inside (fun j after fits within h => ?_) h
    split at h
    · exact forward_star ih greedy j after next found fits within h
    · exact forward_atMost ih greedy _ j after next found fits within h

theorem matchAt?_bounds {syn : Syntax} {chars : Array Char} {i : Nat} {found : Found}
    (inside : i ≤ chars.size) (h : syn.matchAt? chars i = some found) :
    i ≤ found.stop ∧ found.stop ≤ chars.size ∧ found.captures.Inside chars.size := by
  obtain ⟨j, captures, le, fits, within, same⟩ :=
    forward_run ⟨chars, i⟩ syn.root i _ _ found inside (inside_replicate _ _) h
  obtain rfl := Option.some.inj same
  exact ⟨le, fits, within⟩

end StackLexer.Regex
