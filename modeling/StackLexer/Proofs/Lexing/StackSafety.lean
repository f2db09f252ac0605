import StackLexer.Proofs.Grammar.Sources
import StackLexer.Proofs.Lexing.Run

/-! Sound context stacks.
A set of states that transitions do not leave holds all frames of a stack, if it holds the root. The
states that were made from lists are such a set, and each of them is there. The root stays what it
was, and the depth limit is kept, except that there is always one frame. -/

namespace StackLexer

variable {holds : StateId → Prop} {root : StateId} {limit : Nat}

namespace Stack

/-- A stack of a lexicon on a root, with states that are there, and no deeper than allowed. -/
structure Sound (x : Lexicon) (root : StateId) (limit : Nat) (s : Stack) : Prop where
  frames : s.frames ≠ []
  framesThere : ∀ id ∈ s.frames, id.index < x.stateCount
  rootThere : root.index < x.stateCount
  root : s.root = root
  depth : s.frames.length ≤ max 1 limit

structure Within (holds : StateId → Prop) (root : StateId) (limit : Nat) (s : Stack) : Prop where
  root : s.root = root
  frames : ∀ id ∈ s.frames, holds id
  depth : s.depth ≤ max 1 limit

theorem mem_frames {s : Stack} {id : StateId} : id ∈ s.frames ↔ id = s.top ∨ id ∈ s.below := by
  rw [frames, List.mem_reverse, List.mem_cons]

theorem frames_ofRoot (root : StateId) : (ofRoot root).frames = [root] := rfl

theorem within_ofRoot (first : holds root) : Within holds root limit (ofRoot root) := by
  refine ⟨rfl, fun id member => ?_, Nat.le_max_left _ _⟩
  obtain rfl := List.mem_singleton.mp (frames_ofRoot root ▸ member)
  exact first

theorem Within.sound {x : Lexicon} {s : Stack} (within : Within holds root limit s)
    (there : ∀ id, holds id → id.index < x.stateCount) (first : holds root) :
    s.Sound x root limit := by
  refine ⟨?_, fun id member => there id (within.frames id member), there root first, within.root, ?_⟩
  · exact List.ne_nil_of_mem (mem_frames.mpr (.inl rfl))
  · rw [length_frames]
    exact within.depth

theorem holds_apply {s : Stack} (first : holds s.root) (frames : ∀ id ∈ s.frames, holds id)
    {t : Transition} (leads : ∀ id, t.target? = some id → holds id) :
    ∀ id ∈ (s.apply limit t).1.frames, holds id := by
  simp only [mem_frames] at frames
  intro other member
  cases t with
  | stay => exact frames other (mem_frames.mp member)
  | goto id =>
    rcases mem_frames.mp member with rfl | below
    · exact leads _ rfl
    · exact frames other (.inr below)
  | push id =>
    simp only [apply] at member
    split at member
    · rcases mem_frames.mp member with rfl | below
      · exact leads _ rfl
      · exact frames other (List.mem_cons.mp below)
    · exact frames other (mem_frames.mp member)
  | pop =>
    simp only [apply] at member
    split at member
    · obtain rfl := List.mem_singleton.mp (frames_ofRoot s.root ▸ member)
      exact first
    · rename_i next rest below
      rw [below] at frames
      exact frames other (.inr (List.mem_cons.mpr (mem_frames.mp member)))

theorem depth_apply_le {s : Stack} (depth : s.depth ≤ max 1 limit) (t : Transition) :
    (s.apply limit t).1.depth ≤ max 1 limit := by
  cases t with
  | stay | goto => exact depth
  | push id =>
    simp only [apply]
    split
    · rename_i room
      have deeper : s.depth + 1 ≤ limit := room
      exact Nat.le_trans deeper (Nat.le_max_right _ _)
    · exact depth
  | pop =>
    simp only [apply]
    split
    · exact Nat.le_max_left _ _
    · rename_i next rest below
      rw [Stack.depth, below, List.length_cons] at depth
      exact Nat.le_of_succ_le depth

theorem Within.apply {s : Stack} (within : Within holds root limit s) (first : holds root)
    {t : Transition} (leads : ∀ id, t.target? = some id → holds id) :
    Within holds root limit (s.apply limit t).1 where
  root := (s.root_apply limit t).trans within.root
  frames := holds_apply (within.root ▸ first) within.frames leads
  depth := depth_apply_le within.depth t

theorem frames_of_reset {s : Stack} {t : Transition} (reset : (s.apply limit t).2 = .reset) :
    (s.apply limit t).1.frames = [s.root] := by
  cases t with
  | stay | goto => simp [apply] at reset
  | push id =>
    simp only [apply] at reset
    split at reset <;> simp at reset
  | pop =>
    simp only [apply] at reset ⊢
    split at reset
    · rfl
    · simp at reset

end Stack

namespace Tokenizer

variable {t : Tokenizer} {line : Line} {c d : Cursor} {steps : List Step}

theorem step_holds (closed : t.lexicon.Closed holds)
    (there : holds c.stack.root ∧ ∀ id ∈ c.stack.frames, holds id) :
    holds (t.step line c).2.stack.root ∧ ∀ id ∈ (t.step line c).2.stack.frames, holds id := by
  cases found : t.matchAt? line c with
  | none =>
    rw [step_of_none found]
    exact there
  | some match_ =>
    obtain ⟨rule, m⟩ := match_
    obtain ⟨member, _, _⟩ := Lexicon.State.firstMatch?_eq_some found
    obtain ⟨root, frames⟩ := there
    have top := frames c.stack.top (Stack.mem_frames.mpr (.inl rfl))
    rw [step_of_match found]
    refine ⟨?_, Stack.holds_apply root frames (closed c.stack.top top rule member)⟩
    rw [Stack.root_apply]
    exact root

theorem step_within (closed : t.lexicon.Closed holds) (first : holds root)
    (within : c.stack.Within holds root t.settings.maxStackDepth) :
    (t.step line c).2.stack.Within holds root t.settings.maxStackDepth := by
  cases found : t.matchAt? line c with
  | none =>
    rw [step_of_none found]
    exact within
  | some match_ =>
    obtain ⟨rule, m⟩ := match_
    obtain ⟨member, _, _⟩ := Lexicon.State.firstMatch?_eq_some found
    rw [step_of_match found]
    have top := within.frames c.stack.top (Stack.mem_frames.mpr (.inl rfl))
    exact within.apply first (closed c.stack.top top rule member)

theorem Run.within (run : t.Run line c steps d) (closed : t.lexicon.Closed holds)
    (first : holds root) (within : c.stack.Within holds root t.settings.maxStackDepth) :
    d.stack.Within holds root t.settings.maxStackDepth :=
  run.invariant (fun c => c.stack.Within holds root t.settings.maxStackDepth) within
    (fun _ _ => step_within closed first)

theorem frames_of_underflow (under : (t.step line c).1.counts.underflows ≠ 0) :
    (t.step line c).2.stack.frames = [c.stack.root] := by
  cases found : t.matchAt? line c with
  | none =>
    rw [step_of_none found] at under
    split at under <;> simp [Step.counts] at under
  | some match_ =>
    obtain ⟨rule, m⟩ := match_
    rw [step_of_match found] at under ⊢
    apply Stack.frames_of_reset
    simp only [Step.counts] at under
    cases effect : (c.stack.apply t.settings.maxStackDepth rule.transition).2 with
    | reset => rfl
    | stayed | replaced | pushed | refused | popped => simp [effect, Counts.ofEffect] at under

def stackAfter (t : Tokenizer) (stack : Stack) (texts : List String) : Stack :=
  texts.foldl (fun stack text => (t.line stack text).stack) stack

theorem line_within (closed : t.lexicon.Closed holds) (first : holds root) {stack : Stack}
    (within : stack.Within holds root t.settings.maxStackDepth) (text : String) :
    (t.line stack text).stack.Within holds root t.settings.maxStackDepth := by
  obtain ⟨d, run, _, final⟩ := t.run_scan stack (.ofString text)
  have final : (t.line stack text).stack = d.stack := final
  rw [final]
  exact run.within closed first within

theorem stackAfter_within (closed : t.lexicon.Closed holds) (first : holds root) {stack : Stack}
    (within : stack.Within holds root t.settings.maxStackDepth) (texts : List String) :
    (t.stackAfter stack texts).Within holds root t.settings.maxStackDepth := by
  induction texts generalizing stack with
  | nil => exact within
  | cons text rest ih => exact ih (line_within closed first within text)

end Tokenizer

end StackLexer
