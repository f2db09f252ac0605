import StackLexer.Proofs.Grammar.Sources
import StackLexer.Proofs.Lexing.Accounting

/-! Scanning on top of other frames.
A scan that never resets its stack looks neither at the root nor at the frames under those it begins
with. On top of more frames, and with a depth limit that is higher by as many, it goes the same way. -/

namespace StackLexer

namespace Stack

/-- The frames of a stack on top of others, which are given from the bottom up, and another root. -/
def above (s : Stack) (root : StateId) (base : List StateId) : Stack :=
  ⟨root, s.top, s.below ++ base.reverse⟩

variable (s : Stack) (root : StateId) (base : List StateId)

theorem frames_above : (s.above root base).frames = base ++ s.frames := by
  simp [above, frames]

theorem depth_above : (s.above root base).depth = s.depth + base.length := by
  simp only [above, depth, List.length_append, List.length_reverse]
  omega

theorem eq_above {s deeper : Stack} {base : List StateId} (frames : deeper.frames = base ++ s.frames) :
    deeper = s.above deeper.root base := by
  obtain ⟨root, top, below⟩ := deeper
  have reversed := congrArg List.reverse frames
  simp only [Stack.frames, List.reverse_reverse, List.reverse_append, List.cons_append] at reversed
  obtain ⟨rfl, rfl⟩ := List.cons.inj reversed
  rfl

/-- Of all transitions only one that resets the stack comes to what is under the frames. -/
theorem apply_above {limit : Nat} {t : Transition}
    (kept : (Counts.ofEffect (s.apply limit t).2).underflows = 0) :
    ((s.above root base).apply (limit + base.length) t).1 = (s.apply limit t).1.above root base ∧
      Counts.ofEffect ((s.above root base).apply (limit + base.length) t).2 =
        Counts.ofEffect (s.apply limit t).2 := by
  cases t with
  | stay | goto id => exact ⟨rfl, rfl⟩
  | push id =>
    simp only [apply, depth_above, Nat.add_lt_add_iff_right]
    split
    · exact ⟨rfl, rfl⟩
    · exact ⟨rfl, rfl⟩
  | pop =>
    obtain ⟨bottom, top, below⟩ := s
    cases below with
    | nil => simp [apply, Counts.ofEffect] at kept
    | cons next rest => exact ⟨rfl, rfl⟩

end Stack

def Cursor.above (c : Cursor) (root : StateId) (base : List StateId) : Cursor :=
  ⟨c.position, c.stack.above root base, c.spent⟩

namespace Tokenizer

variable {t : Tokenizer} {line : Line}

def raised (t : Tokenizer) (more : Nat) : Tokenizer :=
  { t with settings := { t.settings with maxStackDepth := t.settings.maxStackDepth + more } }

theorem step_above (root : StateId) (base : List StateId) {c : Cursor}
    (kept : (t.step line c).1.counts.underflows = 0) :
    SameYield (t.step line c).1 ((t.raised base.length).step line (c.above root base)).1 ∧
      (t.step line c).2.above root base =
        ((t.raised base.length).step line (c.above root base)).2 := by
  have same : (t.raised base.length).matchAt? line (c.above root base) = t.matchAt? line c := rfl
  cases found : t.matchAt? line c with
  | none =>
    rw [step_of_none found, step_of_none (same.trans found)]
    refine ⟨?_, rfl⟩
    simp only [Cursor.above, Stack.above, raised]
    cases (t.lexicon.state c.stack.top).defaultToken <;> exact ⟨rfl, rfl⟩
  | some match_ =>
    obtain ⟨rule, m⟩ := match_
    rw [step_of_match found] at kept
    obtain ⟨stack, counts⟩ := c.stack.apply_above root base kept
    rw [step_of_match found, step_of_match (same.trans found)]
    refine ⟨⟨rfl, counts.symm⟩, ?_⟩
    simp only [Cursor.above, raised, stack]

theorem underflows_step (stack : Stack) (text : String)
    (balanced : (t.line stack text).counts.underflows = 0) :
    ∀ c ∈ t.visits (.ofString text) ⟨0, stack, 0⟩,
      (t.step (.ofString text) c).1.counts.underflows = 0 := by
  rw [counts_line, countsOf_eq] at balanced
  have none_ := List.countP_eq_zero.mp balanced
  intro c member
  rw [counts_step]
  exact if_neg (none_ c member)

/-- A line that is scanned without an underflow yields the same tokens and counts on top of any frames,
on any root and with as many more frames allowed, and it leaves these frames as they are. -/
theorem line_above (t : Tokenizer) {stack deeper : Stack} {base : List StateId} {text : String}
    (frames : deeper.frames = base ++ stack.frames)
    (balanced : (t.line stack text).counts.underflows = 0) :
    let out := t.line stack text
    let above := (t.raised base.length).line deeper text
    above.tokens = out.tokens ∧ above.counts = out.counts ∧ above.stack.root = deeper.root ∧
      above.stack.frames = base ++ out.stack.frames := by
  intro out above
  let alike (c d : Cursor) : Prop := c.above deeper.root base = d
  have begins : alike ⟨0, stack, 0⟩ ⟨0, deeper, 0⟩ :=
    congrArg (fun s => (⟨0, s, 0⟩ : Cursor)) (Stack.eq_above frames).symm
  have kept := underflows_step stack text balanced
  have sideBySide : List.Forall₂ SameYield (t.scan stack (.ofString text)).steps
      ((t.raised base.length).scan deeper (.ofString text)).steps ∧
        alike (t.last _ ⟨0, stack, 0⟩) ((t.raised base.length).last _ ⟨0, deeper, 0⟩) :=
    scan_alike alike (fun c d same => same ▸ rfl) begins
      (fun c visited d same => same ▸ step_above deeper.root base (kept c visited))
  obtain ⟨steps, final⟩ := sideBySide
  have yields : out.tokens = above.tokens ∧ out.counts = above.counts := line_of_same rfl steps
  have stack_ : above.stack = out.stack.above deeper.root base := by
    have atEnd := congrArg Cursor.stack final
    rw [Cursor.above, ← stack_scan, ← stack_scan] at atEnd
    exact atEnd.symm
  refine ⟨yields.1.symm, yields.2.symm, ?_, ?_⟩
  · rw [stack_]
    rfl
  · rw [stack_, Stack.frames_above]

theorem line_above_brackets :
    ∃ x, RuleSet.brackets.load.2 = .ok x ∧
      let t : Tokenizer := ⟨x, { maxStackDepth := 2 }⟩
      let stack := Stack.ofRoot ⟨0⟩
      let deeper : Stack := ⟨⟨1⟩, ⟨0⟩, [⟨1⟩, ⟨0⟩]⟩
      let out := t.line stack "((a)"
      let above := (t.raised 2).line deeper "((a)"
      deeper.frames = [⟨0⟩, ⟨1⟩] ++ stack.frames ∧ out.counts.underflows = 0 ∧
        above.tokens = out.tokens ∧ above.counts = out.counts ∧ above.stack.root = deeper.root ∧
          above.stack.frames = [⟨0⟩, ⟨1⟩] ++ out.stack.frames := by
  have scanned : RuleSet.brackets.load.2.toOption.map (fun x =>
      ((⟨x, { maxStackDepth := 2 }⟩ : Tokenizer).line (.ofRoot ⟨0⟩) "((a)").counts.underflows) =
        some 0 := by cbv
  obtain ⟨x, found, balanced⟩ := Option.map_eq_some_iff.mp scanned
  have frames : (⟨⟨1⟩, ⟨0⟩, [⟨1⟩, ⟨0⟩]⟩ : Stack).frames = [⟨0⟩, ⟨1⟩] ++ (Stack.ofRoot ⟨0⟩).frames := rfl
  exact ⟨x, RuleSet.load_of_toOption found, frames, balanced, line_above _ frames balanced⟩

end Tokenizer

end StackLexer
