import StackLexer.Proofs.Lexing.StackSafety
import StackLexer.Proofs.Lexing.Tiling

/-! Scanning that stops where it must not go on.
The guarded scan looks a state up and stops if there is none, and before it clamps a position to two
bounds it stops if they are the wrong way round. From a sound stack it never stops, and its outcome is
that of the scan. -/

namespace StackLexer

inductive ScanFault where
  | noState (id : StateId)
  | crossedBounds (low high : Nat)
  deriving DecidableEq, Repr

namespace Piece

def clampGuarded (n low high : Nat) : Except ScanFault Nat :=
  if low ≤ high then .ok (clamp n low high) else .error (.crossedBounds low high)

def ofGroupsGuarded (gap : String) (stop cursor : Nat) :
    List (String × Option (Nat × Nat)) → Except ScanFault (List Piece)
  | [] => .ok (if cursor < stop then [⟨gap, cursor, stop, true⟩] else [])
  | (kind, none) :: rest => do
    let pieces ← ofGroupsGuarded gap stop cursor rest
    .ok (⟨kind, cursor, cursor, true⟩ :: pieces)
  | (kind, some (first, last)) :: rest => do
    let start ← clampGuarded first cursor stop
    let finish ← clampGuarded last start stop
    let others ← ofGroupsGuarded gap stop finish rest
    let pieces := ⟨kind, start, finish, true⟩ :: others
    .ok (if start > cursor then ⟨gap, cursor, start, true⟩ :: pieces else pieces)

theorem clampGuarded_eq {low high : Nat} (order : low ≤ high) (n : Nat) :
    clampGuarded n low high = .ok (clamp n low high) := by
  rw [clampGuarded, if_pos order]

theorem ofGroupsGuarded_eq (gap : String) {stop cursor : Nat} (inside : cursor ≤ stop)
    (groups : List (String × Option (Nat × Nat))) :
    ofGroupsGuarded gap stop cursor groups = .ok (ofGroups gap stop cursor groups) := by
  induction groups generalizing cursor with
  | nil => rfl
  | cons group rest ih =>
    obtain ⟨kind, text⟩ := group
    cases text with
    | none =>
      rw [ofGroupsGuarded, ih inside]
      rfl
    | some text =>
      obtain ⟨first, last⟩ := text
      have start := (clamp_bounds inside first).2
      have finish := (clamp_bounds start last).2
      rw [ofGroupsGuarded, clampGuarded_eq inside]
      simp only [bind, Except.bind, clampGuarded_eq start, ih finish]
      rfl

end Piece

def Step.piecesGuarded : Step → Except ScanFault (List Piece)
  | matched rule found gap _ =>
    match rule.tokens with
    | .single kind => .ok [⟨kind, found.start, found.stop, true⟩]
    | .groups kinds => Piece.ofGroupsGuarded gap found.stop found.start (kinds.zip found.groups)
  | unmatched position kind _ => .ok [⟨kind, position, position + 1, false⟩]

theorem Step.piecesGuarded_eq (step : Step) : step.piecesGuarded = .ok step.pieces := by
  cases step with
  | unmatched => rfl
  | matched rule found gap effect =>
    simp only [piecesGuarded, pieces, Piece.ofMatch]
    cases rule.tokens with
    | single kind => rfl
    | groups kinds => exact Piece.ofGroupsGuarded_eq gap found.start_le_stop _

namespace Tokenizer

variable {t : Tokenizer} {line : Line} {holds : StateId → Prop} {root : StateId}

def stepGuarded (t : Tokenizer) (line : Line) (c : Cursor) : Except ScanFault (Step × Cursor) :=
  match t.lexicon.states[c.stack.top.index]? with
  | some _ => .ok (t.step line c)
  | none => .error (.noState c.stack.top)

def scanGuarded (t : Tokenizer) (line : Line) (c : Cursor) :
    Except ScanFault (List Step × List Piece × Stack) :=
  if _before : c.position < line.size then
    match _taken : t.stepGuarded line c with
    | .error fault => .error fault
    | .ok (step, next) => do
      let pieces ← step.piecesGuarded
      let (steps, others, final) ← t.scanGuarded line next
      .ok (step :: steps, pieces ++ others, final)
  else .ok ([], [], c.stack)
termination_by (line.size - c.position, t.settings.maxZeroWidthSteps - c.spent)
decreasing_by
  have same : t.step line c = (step, next) := by
    unfold stepGuarded at _taken
    split at _taken
    · exact Except.ok.inj _taken
    · simp at _taken
  have less := t.step_decreases _before
  rwa [same] at less

def lineGuarded (t : Tokenizer) (stack : Stack) (text : String) : Except ScanFault LineTokens := do
  let line := Line.ofString text
  let (steps, pieces, final) ← t.scanGuarded line ⟨0, stack, 0⟩
  let joined := if t.settings.mergeUnmatched then Piece.join pieces else pieces
  .ok {
    tokens := joined.map (Piece.token line)
    stack := final
    counts := Scan.counts ⟨line, steps, final⟩
    events := Scan.events ⟨line, steps, final⟩ t.settings.maxStackDepth }

theorem scanGuarded_eq (closed : t.lexicon.Closed holds)
    (there : ∀ id, holds id → id.index < t.lexicon.stateCount) (first : holds root) (line : Line)
    (c : Cursor) (within : c.stack.Within holds root t.settings.maxStackDepth) :
    t.scanGuarded line c =
      let (steps, final) := t.scanFrom line c.position c.stack c.spent
      .ok (steps, steps.flatMap Step.pieces, final) := by
  rw [scanGuarded]
  by_cases before : c.position < line.size
  · have bound := there _ (within.frames c.stack.top (Stack.mem_frames.mpr (.inl rfl)))
    have taken : t.stepGuarded line c = .ok (t.step line c) := by
      rw [stepGuarded, Array.getElem?_eq_getElem bound]
    have rest := scanGuarded_eq closed there first line (t.step line c).2
      (step_within closed first within)
    rw [dif_pos before, scanFrom_step before]
    split
    · rename_i fault failed
      simp [failed] at taken
    · rename_i step next taken'
      have same : (step, next) = t.step line c := Except.ok.inj (taken'.symm.trans taken)
      obtain rfl : step = (t.step line c).1 := congrArg Prod.fst same
      obtain rfl : next = (t.step line c).2 := congrArg Prod.snd same
      simp only [Step.piecesGuarded_eq, bind, Except.bind, rest, List.flatMap_cons]
  · rw [dif_neg before, scanFrom_end (Nat.not_lt.mp before)]
    rfl
termination_by (line.size - c.position, t.settings.maxZeroWidthSteps - c.spent)
decreasing_by exact step_decreases before

theorem lineGuarded_eq (closed : t.lexicon.Closed holds)
    (there : ∀ id, holds id → id.index < t.lexicon.stateCount) (first : holds root) {stack : Stack}
    (within : stack.Within holds root t.settings.maxStackDepth) (text : String) :
    t.lineGuarded stack text = .ok (t.line stack text) := by
  have scanned := scanGuarded_eq closed there first (.ofString text) ⟨0, stack, 0⟩ within
  rw [lineGuarded, scanned]
  rfl

/-- Whatever lines have been scanned before, from a named state of a lexicon that was loaded: the
stack at each cursor of a line is sound, and an underflow leaves the root alone. No line stops a
guarded scan. -/
theorem loaded_stacks_sound [RegexEngine] {set : RuleSet} {x : Lexicon} (loaded : set.load.2 = .ok x)
    (settings : Settings) {name : String} {root : StateId} (named : x.stateId? name = some root)
    (texts : List String) (text : String) :
    let t : Tokenizer := ⟨x, settings⟩
    let stack := t.stackAfter (.ofRoot root) texts
    let line := Line.ofString text
    (∀ steps c, t.Run line ⟨0, stack, 0⟩ steps c →
      c.stack.Sound x root settings.maxStackDepth ∧
        ((t.step line c).1.counts.underflows ≠ 0 → (t.step line c).2.stack.frames = [root])) ∧
      (∃ d, t.Run line ⟨0, stack, 0⟩ (t.scan stack line).steps d ∧ line.size ≤ d.position ∧
        (t.line stack text).stack = d.stack) ∧
      t.lineGuarded stack text = .ok (t.line stack text) := by
  intro t stack line
  have closed : t.lexicon.Closed set.Made := RuleSet.load_closed loaded
  have first : set.Made root := ⟨_, RuleSet.source_of_stateId? loaded named⟩
  have there : ∀ id, set.Made id → id.index < x.stateCount :=
    fun _ made => RuleSet.made_bound loaded made
  have begins : (Stack.ofRoot root).Within set.Made root t.settings.maxStackDepth :=
    Stack.within_ofRoot first
  have within := stackAfter_within closed first begins texts
  refine ⟨fun steps c run => ?_, t.run_scan stack line, lineGuarded_eq closed there first within text⟩
  have within := run.within closed first within
  refine ⟨within.sound there first, ?_⟩
  intro under
  rw [frames_of_underflow under, within.root]

theorem loaded_stacks_sound_brackets :
    ∃ x root, RuleSet.brackets.load.2 = .ok x ∧ x.stateId? "start" = some root ∧
      let t : Tokenizer := ⟨x, {}⟩
      let stack := t.stackAfter (.ofRoot root) ["(("]
      let line := Line.ofString "a)))"
      (∀ steps c, t.Run line ⟨0, stack, 0⟩ steps c →
        c.stack.Sound x root t.settings.maxStackDepth ∧
          ((t.step line c).1.counts.underflows ≠ 0 → (t.step line c).2.stack.frames = [root])) ∧
        (∃ d, t.Run line ⟨0, stack, 0⟩ (t.scan stack line).steps d ∧ line.size ≤ d.position ∧
          (t.line stack "a)))").stack = d.stack) ∧
        t.lineGuarded stack "a)))" = .ok (t.line stack "a)))") := by
  obtain ⟨x, loaded, named⟩ := RuleSet.brackets_load
  exact ⟨x, ⟨0⟩, loaded, named, loaded_stacks_sound loaded {} named ["(("] "a)))"⟩

end Tokenizer

end StackLexer
