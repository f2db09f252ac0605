import StackLexer.Lexing.Scan

/-! A scan as a run of single steps.
A cursor holds all that the next step depends on. `Tokenizer.step` takes one step from a cursor, a
run is a chain of steps, and a scan is the run that ends at the end of the line. What every step
keeps holds at every cursor that a run reaches. -/

namespace StackLexer

structure Cursor where
  position : Nat
  stack : Stack
  spent : Nat := 0
  deriving DecidableEq, Repr, Inhabited

namespace Tokenizer

def matchAt? (t : Tokenizer) (line : Line) (c : Cursor) : Option (Lexicon.Rule × Match) :=
  (t.lexicon.state c.stack.top).firstMatch? line c.position (c.spent < t.settings.maxZeroWidthSteps)

def step (t : Tokenizer) (line : Line) (c : Cursor) : Step × Cursor :=
  let state := t.lexicon.state c.stack.top
  match t.matchAt? line c with
  | some (rule, m) =>
    let (next, effect) := c.stack.apply t.settings.maxStackDepth rule.transition
    (.matched rule m (state.defaultToken.getD t.settings.fallbackToken) effect,
      if m.length = 0 then ⟨c.position, next, c.spent + 1⟩ else ⟨c.position + m.length, next, 0⟩)
  | none =>
    let step := match state.defaultToken with
      | some kind => Step.unmatched c.position kind none
      | none => Step.unmatched c.position t.settings.fallbackToken (some c.stack.top)
    (step, ⟨c.position + 1, c.stack, 0⟩)

inductive Run (t : Tokenizer) (line : Line) : Cursor → List Step → Cursor → Prop
  | refl (c : Cursor) : Run t line c [] c
  | cons {c d : Cursor} {steps : List Step} (before : c.position < line.size)
      (rest : Run t line (t.step line c).2 steps d) : Run t line c ((t.step line c).1 :: steps) d

end Tokenizer

namespace Lexicon

/-- The first match of a state is one of a rule of its own. An empty one is taken only for a rule
with a transition, and while empty matches are taken. -/
theorem State.firstMatch?_eq_some {state : State} {line : Line} {i : Nat} {takeEmpty : Bool}
    {rule : Rule} {m : Match} (h : state.firstMatch? line i takeEmpty = some (rule, m)) :
    rule ∈ state.rules ∧ rule.pattern.matchAt? line i = some m ∧
      (m.length = 0 → rule.transition ≠ .stay ∧ takeEmpty = true) := by
  obtain ⟨found, member, h⟩ := List.exists_of_findSome?_eq_some h
  split at h
  · rename_i m' matched
    split at h
    · simp at h
    · rename_i counts
      simp only [Option.some.injEq, Prod.mk.injEq] at h
      obtain ⟨rfl, rfl⟩ := h
      refine ⟨by simpa using member, matched, fun empty => ?_⟩
      simp [Match.isEmpty, empty] at counts
      exact counts
  · simp at h

end Lexicon

namespace Tokenizer

variable {t : Tokenizer} {line : Line} {c d : Cursor} {steps : List Step}

theorem step_of_match {rule : Lexicon.Rule} {m : Match} (h : t.matchAt? line c = some (rule, m)) :
    t.step line c =
      (.matched rule m
          ((t.lexicon.state c.stack.top).defaultToken.getD t.settings.fallbackToken)
          (c.stack.apply t.settings.maxStackDepth rule.transition).2,
        ⟨m.stop, (c.stack.apply t.settings.maxStackDepth rule.transition).1,
          if m.length = 0 then c.spent + 1 else 0⟩) := by
  obtain ⟨_, matched, _⟩ := Lexicon.State.firstMatch?_eq_some h
  have start := (Pattern.bounds _ matched).1
  unfold step
  rw [h]
  simp only [Match.stop, start]
  split
  · rename_i empty
    simp [empty]
  · rfl

theorem step_of_none (h : t.matchAt? line c = none) :
    t.step line c =
      (match (t.lexicon.state c.stack.top).defaultToken with
        | some kind => .unmatched c.position kind none
        | none => .unmatched c.position t.settings.fallbackToken (some c.stack.top),
        ⟨c.position + 1, c.stack, 0⟩) := by
  unfold step
  rw [h]

theorem scanFrom_step (before : c.position < line.size) :
    t.scanFrom line c.position c.stack c.spent =
      ((t.step line c).1 :: (t.scanFrom line (t.step line c).2.position (t.step line c).2.stack
          (t.step line c).2.spent).1,
        (t.scanFrom line (t.step line c).2.position (t.step line c).2.stack
          (t.step line c).2.spent).2) := by
  rw [scanFrom]
  simp only [before, if_true, step, matchAt?]
  split
  · rename_i rule m found
    simp only [found]
    split <;> rfl
  · rename_i found
    rewrite [found]
    rfl

theorem scanFrom_end (beyond : line.size ≤ c.position) :
    t.scanFrom line c.position c.stack c.spent = ([], c.stack) := by
  rw [scanFrom]
  simp [Nat.not_lt.mpr beyond]

/-- What is left of a line and of the empty matches at a position gets less with each step. -/
theorem step_decreases (before : c.position < line.size) :
    Prod.Lex (· < ·) (· < ·)
      (line.size - (t.step line c).2.position, t.settings.maxZeroWidthSteps - (t.step line c).2.spent)
      (line.size - c.position, t.settings.maxZeroWidthSteps - c.spent) := by
  cases found : t.matchAt? line c with
  | none =>
    rw [step_of_none found]
    exact Prod.Lex.left _ _ (by simp only; omega)
  | some match_ =>
    obtain ⟨rule, m⟩ := match_
    obtain ⟨_, matched, taken⟩ := Lexicon.State.firstMatch?_eq_some found
    obtain ⟨start, bound, _⟩ := Pattern.bounds _ matched
    rw [step_of_match found]
    by_cases empty : m.length = 0
    · have allowed := (taken empty).2
      simp only [decide_eq_true_eq] at allowed
      simp only [Match.stop, start, empty, Nat.add_zero, if_true]
      exact Prod.Lex.right _ (by omega)
    · simp only [Match.stop] at bound ⊢
      exact Prod.Lex.left _ _ (by omega)

theorem run_scanFrom (t : Tokenizer) (line : Line) (c : Cursor) :
    ∃ d : Cursor, t.Run line c (t.scanFrom line c.position c.stack c.spent).1 d ∧
      line.size ≤ d.position ∧ (t.scanFrom line c.position c.stack c.spent).2 = d.stack := by
  by_cases before : c.position < line.size
  · obtain ⟨d, run, beyond, final⟩ := run_scanFrom t line (t.step line c).2
    rw [scanFrom_step before]
    exact ⟨d, .cons before run, beyond, final⟩
  · have beyond := Nat.not_lt.mp before
    rw [scanFrom_end beyond]
    exact ⟨c, .refl c, beyond, rfl⟩
termination_by (line.size - c.position, t.settings.maxZeroWidthSteps - c.spent)
decreasing_by exact step_decreases before

theorem run_scan (t : Tokenizer) (stack : Stack) (line : Line) :
    ∃ d : Cursor, t.Run line ⟨0, stack, 0⟩ (t.scan stack line).steps d ∧
      line.size ≤ d.position ∧ (t.scan stack line).stack = d.stack :=
  t.run_scanFrom line ⟨0, stack, 0⟩

def lines (t : Tokenizer) (stack : Stack) : List String → List LineTokens
  | [] => []
  | text :: rest =>
    let out := t.line stack text
    out :: t.lines out.stack rest

/-- What each step keeps holds at every cursor of a run. -/
theorem Run.invariant (run : t.Run line c steps d) (holds : Cursor → Prop) (first : holds c)
    (kept : ∀ c : Cursor, c.position < line.size → holds c → holds (t.step line c).2) :
    holds d := by
  induction run with
  | refl c => exact first
  | cons before rest ih => exact ih (kept _ before first)

theorem step_position_le (before : c.position < line.size) :
    c.position ≤ (t.step line c).2.position ∧ (t.step line c).2.position ≤ line.size := by
  cases found : t.matchAt? line c with
  | none =>
    rw [step_of_none found]
    exact ⟨Nat.le_succ c.position, before⟩
  | some match_ =>
    obtain ⟨rule, m⟩ := match_
    obtain ⟨_, matched, _⟩ := Lexicon.State.firstMatch?_eq_some found
    obtain ⟨start, bound, _⟩ := Pattern.bounds _ matched
    rw [step_of_match found]
    exact ⟨start ▸ m.start_le_stop, bound⟩

end Tokenizer

namespace Counts

theorem add_eq (a b : Counts) : a + b = ⟨a.stalls + b.stalls, a.pushes + b.pushes, a.pops + b.pops,
    a.underflows + b.underflows, a.overflows + b.overflows⟩ := rfl

theorem add_assoc (a b c : Counts) : a + b + c = a + (b + c) := by
  simp only [add_eq, Nat.add_assoc]

theorem add_zero (a : Counts) : a + {} = a := by
  simp only [add_eq, Nat.add_zero]

theorem zero_add (a : Counts) : {} + a = a := by
  simp only [add_eq, Nat.zero_add]

theorem foldl_add (steps : List Step) (sum : Counts) :
    steps.foldl (fun sum step => sum + step.counts) sum =
      sum + steps.foldl (fun sum step => sum + step.counts) {} := by
  induction steps generalizing sum with
  | nil => exact (add_zero sum).symm
  | cons step rest ih => rw [List.foldl_cons, List.foldl_cons, ih, ih ({} + _), zero_add, add_assoc]

end Counts

theorem Scan.counts_cons (line : Line) (step : Step) (steps : List Step) (final : Stack) :
    Scan.counts ⟨line, step :: steps, final⟩ = step.counts + Scan.counts ⟨line, steps, final⟩ := by
  rw [Scan.counts, List.foldl_cons, Counts.foldl_add, Counts.zero_add]
  rfl

end StackLexer
