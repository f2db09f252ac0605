import Mathlib.Data.List.Forall2
import StackLexer.Proofs.Lexing.Run

/-! The cursors of a scan.
A scan visits cursors, takes one step from each of them and comes to a last one at the end of the line.
Whatever a scan yields is read off its visits, and of two scans that visit cursors which are alike, step
by step, the steps and the last cursors are alike. -/

namespace StackLexer

namespace Tokenizer

variable {t u : Tokenizer} {line : Line} {c d : Cursor}

/-- The cursors from which a scan takes its steps. -/
def visits (t : Tokenizer) (line : Line) (c : Cursor) : List Cursor :=
  if _before : c.position < line.size then c :: t.visits line (t.step line c).2 else []
termination_by (line.size - c.position, t.settings.maxZeroWidthSteps - c.spent)
decreasing_by exact step_decreases _before

def last (t : Tokenizer) (line : Line) (c : Cursor) : Cursor :=
  if _before : c.position < line.size then t.last line (t.step line c).2 else c
termination_by (line.size - c.position, t.settings.maxZeroWidthSteps - c.spent)
decreasing_by exact step_decreases _before

theorem visits_step (before : c.position < line.size) :
    t.visits line c = c :: t.visits line (t.step line c).2 := by
  rw [visits, dif_pos before]

theorem visits_end (beyond : ¬ c.position < line.size) : t.visits line c = [] := by
  rw [visits, dif_neg beyond]

theorem last_step (before : c.position < line.size) :
    t.last line c = t.last line (t.step line c).2 := by
  rw [last, dif_pos before]

theorem last_end (beyond : ¬ c.position < line.size) : t.last line c = c := by
  rw [last, dif_neg beyond]

/-- What holds of the visits from the end of a line, and of those from a cursor if it holds of those
from the next one, holds of all. -/
theorem visits_induction (t : Tokenizer) (line : Line) {holds : Cursor → Prop}
    (done : ∀ c, ¬ c.position < line.size → holds c)
    (step : ∀ c, c.position < line.size → holds (t.step line c).2 → holds c) (c : Cursor) :
    holds c := by
  by_cases before : c.position < line.size
  · exact step c before (visits_induction t line done step (t.step line c).2)
  · exact done c before
termination_by (line.size - c.position, t.settings.maxZeroWidthSteps - c.spent)
decreasing_by exact step_decreases before

theorem scanFrom_visits (t : Tokenizer) (line : Line) (c : Cursor) :
    t.scanFrom line c.position c.stack c.spent =
      ((t.visits line c).map (fun c => (t.step line c).1), (t.last line c).stack) := by
  induction c using t.visits_induction line with
  | done c beyond =>
    rw [scanFrom_end (Nat.not_lt.mp beyond), visits_end beyond, last_end beyond]
    rfl
  | step c before ih => rw [scanFrom_step before, visits_step before, last_step before, ih]; rfl

theorem steps_scan (t : Tokenizer) (stack : Stack) (line : Line) :
    (t.scan stack line).steps =
      (t.visits line ⟨0, stack, 0⟩).map (fun c => (t.step line c).1) := by
  rw [scan, t.scanFrom_visits line ⟨0, stack, 0⟩]

theorem stack_scan (t : Tokenizer) (stack : Stack) (line : Line) :
    (t.scan stack line).stack = (t.last line ⟨0, stack, 0⟩).stack := by
  rw [scan, t.scanFrom_visits line ⟨0, stack, 0⟩]

theorem pieces_scan (t : Tokenizer) (stack : Stack) (line : Line) :
    (t.scan stack line).steps.flatMap Step.pieces =
      (t.visits line ⟨0, stack, 0⟩).flatMap (fun c => (t.step line c).1.pieces) := by
  rw [steps_scan, List.flatMap_map]

theorem visits_bounds (line : Line) (c : Cursor) :
    ∀ d ∈ t.visits line c, c.position ≤ d.position ∧ d.position < line.size := by
  induction c using t.visits_induction line with
  | done c beyond => simp [visits_end beyond]
  | step c before ih =>
    intro d member
    rw [visits_step before] at member
    rcases List.mem_cons.mp member with rfl | later
    · exact ⟨Nat.le_refl _, before⟩
    · obtain ⟨after, inside⟩ := ih d later
      exact ⟨Nat.le_trans (step_position_le before).1 after, inside⟩

theorem visits_invariant {holds : Cursor → Prop} (first : holds c)
    (kept : ∀ c, c.position < line.size → holds c → holds (t.step line c).2) :
    ∀ d ∈ t.visits line c, holds d := by
  induction c using t.visits_induction line with
  | done c beyond => simp [visits_end beyond]
  | step c before ih =>
    rw [visits_step before]
    exact List.forall_mem_cons.mpr ⟨first, ih (kept c before first)⟩

theorem visits_of_next (next : ∀ c, (u.step line c).2 = (t.step line c).2) (c : Cursor) :
    u.visits line c = t.visits line c ∧ u.last line c = t.last line c := by
  induction c using t.visits_induction line with
  | done c beyond =>
    rw [visits_end beyond, visits_end beyond, last_end beyond, last_end beyond]
    exact ⟨rfl, rfl⟩
  | step c before ih =>
    rw [visits_step before, visits_step before, last_step before, last_step before, next]
    exact ⟨congrArg (c :: ·) ih.1, ih.2⟩

/-- Scans go side by side if their steps do so from each cursor that the first one visits. -/
theorem visits_alike {alike : Cursor → Cursor → Prop} {same : Step → Step → Prop}
    (position : ∀ c d, alike c d → c.position = d.position) (c d : Cursor) (first : alike c d)
    (kept : ∀ a ∈ t.visits line c, ∀ b, alike a b →
      same (t.step line a).1 (u.step line b).1 ∧ alike (t.step line a).2 (u.step line b).2) :
    List.Forall₂ (fun a b => same (t.step line a).1 (u.step line b).1) (t.visits line c)
        (u.visits line d) ∧
      alike (t.last line c) (u.last line d) := by
  induction c using t.visits_induction line generalizing d with
  | done c beyond =>
    have beyond' : ¬ d.position < line.size := position c d first ▸ beyond
    rw [visits_end beyond, visits_end beyond', last_end beyond, last_end beyond']
    exact ⟨.nil, first⟩
  | step c before ih =>
    have before' : d.position < line.size := position c d first ▸ before
    rw [visits_step before] at kept
    obtain ⟨here, next⟩ := kept c List.mem_cons_self d first
    obtain ⟨others, final⟩ := ih _ next (fun a later => kept a (List.mem_cons_of_mem _ later))
    rw [visits_step before, visits_step before', last_step before, last_step before']
    exact ⟨.cons here others, final⟩

theorem scan_alike (alike : Cursor → Cursor → Prop) {same : Step → Step → Prop}
    (position : ∀ c d, alike c d → c.position = d.position) {stack other : Stack}
    (first : alike ⟨0, stack, 0⟩ ⟨0, other, 0⟩)
    (kept : ∀ a ∈ t.visits line ⟨0, stack, 0⟩, ∀ b, alike a b →
      same (t.step line a).1 (u.step line b).1 ∧ alike (t.step line a).2 (u.step line b).2) :
    List.Forall₂ same (t.scan stack line).steps (u.scan other line).steps ∧
      alike (t.last line ⟨0, stack, 0⟩) (u.last line ⟨0, other, 0⟩) := by
  obtain ⟨steps, final⟩ := visits_alike position _ _ first kept
  rw [steps_scan, steps_scan, List.forall₂_map_left_iff, List.forall₂_map_right_iff]
  exact ⟨steps, final⟩

theorem scan_of_steps {stack : Stack}
    (same : ∀ c ∈ t.visits line ⟨0, stack, 0⟩, u.step line c = t.step line c) :
    u.scan stack line = t.scan stack line := by
  have alike : List.Forall₂ Eq (t.scan stack line).steps (u.scan stack line).steps ∧
      t.last line ⟨0, stack, 0⟩ = u.last line ⟨0, stack, 0⟩ := by
    refine scan_alike Eq (fun _ _ => congrArg Cursor.position) rfl ?_
    rintro c visited _ rfl
    rw [same c visited]
    exact ⟨rfl, rfl⟩
  obtain ⟨steps, final⟩ := alike
  rw [List.forall₂_eq_eq_eq] at steps
  have left : (u.scan stack line).stack = (t.scan stack line).stack := by
    rw [stack_scan, stack_scan, final]
  have whole : Scan.mk line _ _ = Scan.mk line _ _ := congr (congrArg (Scan.mk line) steps.symm) left
  exact whole

def SameYield (a b : Step) : Prop := a.pieces = b.pieces ∧ a.counts = b.counts

theorem pieces_of_same {steps others : List Step} (same : List.Forall₂ SameYield steps others) :
    steps.flatMap Step.pieces = others.flatMap Step.pieces := by
  induction same with
  | nil => rfl
  | cons first _ ih => rw [List.flatMap_cons, List.flatMap_cons, first.1, ih]

theorem counts_of_same {steps others : List Step} (same : List.Forall₂ SameYield steps others)
    (final other : Stack) :
    Scan.counts ⟨line, steps, final⟩ = Scan.counts ⟨line, others, other⟩ := by
  induction same with
  | nil => rfl
  | cons first _ ih => rw [Scan.counts_cons, Scan.counts_cons, first.2, ih]

theorem line_of_same {stack other : Stack} {text : String}
    (merge : t.settings.mergeUnmatched = u.settings.mergeUnmatched)
    (same : List.Forall₂ SameYield (t.scan stack (.ofString text)).steps
      (u.scan other (.ofString text)).steps) :
    (t.line stack text).tokens = (u.line other text).tokens ∧
      (t.line stack text).counts = (u.line other text).counts := by
  refine ⟨?_, counts_of_same same _ _⟩
  simp only [line, Scan.tokens, pieces_of_same same, merge]
  rfl

end Tokenizer

end StackLexer
