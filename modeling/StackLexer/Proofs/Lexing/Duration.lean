import StackLexer.Proofs.Lexing.Progress
import StackLexer.Proofs.Lexing.Tiling

/-! How long a scan can take.
Each character has a budget of one step that moves past it and as many as there may be empty matches in
a row. A step spends some of what is left of the budget of a line, even if it changes nothing else, so
that states which hand over to one another come to an end as well. -/

namespace StackLexer

namespace Tokenizer

variable {t : Tokenizer} {line : Line} {c d : Cursor} {steps : List Step}

/-- A step takes an empty match, of which there is one less then, or it moves on in the line. -/
theorem step_moves (before : c.position < line.size) :
    (∃ rule m, t.matchAt? line c = some (rule, m) ∧ m.length = 0 ∧
      c.spent < t.settings.maxZeroWidthSteps ∧ (t.step line c).2.position = c.position ∧
        (t.step line c).2.spent = c.spent + 1) ∨
      c.position < (t.step line c).2.position ∧ (t.step line c).2.position ≤ line.size ∧
        (t.step line c).2.spent = 0 := by
  have inside := (step_position_le (t := t) before).2
  cases found : t.matchAt? line c with
  | none =>
    refine .inr ⟨?_, inside, ?_⟩
    · rw [step_of_none found]
      exact Nat.lt_succ_self _
    · rw [step_of_none found]
  | some match_ =>
    obtain ⟨rule, m⟩ := match_
    obtain ⟨_, matched, taken⟩ := Lexicon.State.firstMatch?_eq_some found
    by_cases empty : m.length = 0
    · have allowed : c.spent < t.settings.maxZeroWidthSteps := by simpa using (taken empty).2
      have next := step_of_empty found empty
      exact .inl ⟨rule, m, rfl, empty, allowed, next ▸ rfl, next ▸ rfl⟩
    · refine .inr ⟨?_, inside, ?_⟩
      · rw [step_of_match found, Match.stop, (Pattern.bounds _ matched).1]
        exact Nat.lt_add_of_pos_right (Nat.pos_of_ne_zero empty)
      · rw [step_of_match found]
        exact if_neg empty

def budget (t : Tokenizer) (line : Line) (c : Cursor) : Nat :=
  (line.size - c.position) * (t.settings.maxZeroWidthSteps + 1) - c.spent

theorem spent_step (before : c.position < line.size) :
    (t.step line c).2.spent ≤ t.settings.maxZeroWidthSteps := by
  rcases step_moves (t := t) before with ⟨_, _, _, _, allowed, _, spent⟩ | ⟨_, _, spent⟩
  · exact spent ▸ allowed
  · exact spent ▸ Nat.zero_le _

theorem budget_step (before : c.position < line.size)
    (within : c.spent ≤ t.settings.maxZeroWidthSteps) :
    t.budget line (t.step line c).2 < t.budget line c := by
  unfold budget
  rcases step_moves (t := t) before with ⟨_, _, _, _, _, same, spent⟩ | ⟨moves, inside, spent⟩
  · have some_ : t.settings.maxZeroWidthSteps + 1 ≤
        (line.size - c.position) * (t.settings.maxZeroWidthSteps + 1) :=
      Nat.le_mul_of_pos_left _ (Nat.sub_pos_of_lt before)
    rw [same, spent]
    omega
  · -- The character that is behind now had more in its budget than the empty matches before it took.
    have behind := Nat.mul_le_mul_right (t.settings.maxZeroWidthSteps + 1)
      (show line.size - (t.step line c).2.position + 1 ≤ line.size - c.position by omega)
    rw [Nat.add_mul, Nat.one_mul] at behind
    omega

theorem Run.length_le (run : t.Run line c steps d)
    (within : c.spent ≤ t.settings.maxZeroWidthSteps) :
    steps.length + t.budget line d ≤ t.budget line c := by
  induction run with
  | refl c => simp
  | cons before rest ih =>
    have spends := budget_step before within
    have others := ih (spent_step before)
    rw [List.length_cons]
    omega

theorem Run.spent_le (run : t.Run line c steps d)
    (within : c.spent ≤ t.settings.maxZeroWidthSteps) :
    d.spent ≤ t.settings.maxZeroWidthSteps :=
  run.invariant (fun c => c.spent ≤ t.settings.maxZeroWidthSteps) within
    (fun _ before _ => spent_step before)

theorem Run.spent_of_still (run : t.Run line c steps d) (still : d.position = c.position) :
    d.spent = c.spent + steps.length := by
  induction run with
  | refl c => rfl
  | cons before rest ih =>
    have after := rest.tiles.le
    rcases step_moves (t := t) before with ⟨_, _, _, _, _, same, spent⟩ | ⟨moves, _⟩
    · rw [ih (still.trans same.symm), spent, List.length_cons]
      omega
    · omega

end Tokenizer

theorem Step.transitions_le (step : Step) :
    step.counts.pushes + step.counts.pops + step.counts.underflows + step.counts.overflows ≤ 1 := by
  cases step with
  | matched rule found gap effect => cases effect <;> simp [counts, Counts.ofEffect]
  | unmatched position kind stalled => cases stalled <;> simp [counts]

theorem Scan.transitions_le (line : Line) (steps : List Step) (final : Stack) :
    let counts := Scan.counts ⟨line, steps, final⟩
    counts.pushes + counts.pops + counts.underflows + counts.overflows ≤ steps.length := by
  induction steps with
  | nil => exact Nat.le_refl 0
  | cons step rest ih =>
    have here := step.transitions_le
    simp only [Scan.counts_cons, Counts.add_eq, List.length_cons] at ih ⊢
    omega

namespace Tokenizer

structure Ends (t : Tokenizer) (stack : Stack) (text : String) (most : Nat) : Prop where
  /-- No way of taking steps from the start of the line is longer. -/
  runs : ∀ steps c, t.Run (.ofString text) ⟨0, stack, 0⟩ steps c → steps.length ≤ most
  scan : ∃ c, t.Run (.ofString text) ⟨0, stack, 0⟩ (t.scan stack (.ofString text)).steps c ∧
    (Line.ofString text).size ≤ c.position ∧ (t.line stack text).stack = c.stack
  /-- A step takes an empty match, or it goes on to a later character or to the end. -/
  moves : ∀ steps c, t.Run (.ofString text) ⟨0, stack, 0⟩ steps c → c.position < text.length →
    let next := (t.step (.ofString text) c).2
    (∃ rule m, t.matchAt? (.ofString text) c = some (rule, m) ∧ m.length = 0 ∧
      next.position = c.position) ∨ c.position < next.position ∧ next.position ≤ text.length
  /-- Steps in a row that stay at a position are no more than there may be empty matches. -/
  still : ∀ steps c, t.Run (.ofString text) ⟨0, stack, 0⟩ steps c →
    ∀ more d, t.Run (.ofString text) c more d → d.position = c.position →
      more.length ≤ t.settings.maxZeroWidthSteps
  transitions : (t.line stack text).counts.pushes + (t.line stack text).counts.pops +
    (t.line stack text).counts.underflows + (t.line stack text).counts.overflows ≤ most

theorem size_ofString (text : String) : (Line.ofString text).size = text.length := by
  rw [Line.size, ← Array.length_toList, Line.toList_chars_ofString, String.length_toList]

/-- The scan of any line ends, from any stack, after at most as many steps for each character as there
may be empty matches in a row and one more. It pushes and pops no more often than that. -/
theorem line_ends (t : Tokenizer) (stack : Stack) (text : String) :
    t.Ends stack text (text.length * (t.settings.maxZeroWidthSteps + 1)) := by
  have runs : ∀ steps c, t.Run (.ofString text) ⟨0, stack, 0⟩ steps c →
      steps.length ≤ text.length * (t.settings.maxZeroWidthSteps + 1) := by
    intro steps c run
    have spent := run.length_le (Nat.zero_le _)
    simp only [budget, size_ofString, Nat.sub_zero] at spent
    omega
  obtain ⟨c, run, final⟩ := t.run_scan stack (.ofString text)
  exact {
    runs
    scan := ⟨c, run, final⟩
    moves := by
      intro steps c _ before next
      have before : c.position < (Line.ofString text).size := size_ofString text ▸ before
      refine (step_moves (t := t) before).imp (fun empty => ?_) (fun ⟨further, inside, _⟩ => ⟨further, ?_⟩)
      · obtain ⟨rule, m, found, empty, _, same, _⟩ := empty
        exact ⟨rule, m, found, empty, same⟩
      · exact size_ofString text ▸ inside
    still := by
      intro steps c run more d stays same
      have spent := stays.spent_of_still same
      have within := stays.spent_le (run.spent_le (Nat.zero_le _))
      omega
    transitions := Nat.le_trans (Scan.transitions_le _ _ _) (runs _ c run) }

end Tokenizer

end StackLexer
