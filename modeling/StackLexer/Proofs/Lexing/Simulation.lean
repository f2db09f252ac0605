import Mathlib.Data.List.Forall2
import StackLexer.Proofs.Lexing.Machine

/-! Lexicons that do what machines do.
States of a lexicon stand for states of a machine if their rules stand for the arms, one by one, and
their default tokens are the same. Steps from stacks that stand for one another yield the same and
leave such stacks, and so do lines. -/

namespace StackLexer

variable {σ : Type} {R : StateId → σ → Prop}

inductive Move.Related (R : StateId → σ → Prop) : Transition → Move σ → Prop
  | stay : Related R .stay .stay
  | pop : Related R .pop .pop
  | goto {id : StateId} {state : σ} (h : R id state) : Related R (.goto id) (.goto state)
  | push {id : StateId} {state : σ} (h : R id state) : Related R (.push id) (.push state)

structure Arm.Related (R : StateId → σ → Prop) (rule : Lexicon.Rule) (arm : Arm σ) : Prop where
  pattern : rule.pattern = arm.pattern
  tokens : rule.tokens = arm.tokens
  move : Move.Related R rule.transition arm.move

structure Machine.Represented (m : Machine σ) (x : Lexicon) (R : StateId → σ → Prop) : Prop where
  defaultToken : ∀ id state, R id state → (x.state id).defaultToken = m.defaultToken state
  rules : ∀ id state, R id state →
    List.Forall₂ (Arm.Related R) (x.state id).rules.toList (m.arms state)

namespace Machine

structure Frames.Related (R : StateId → σ → Prop) (s : Stack) (f : Frames σ) : Prop where
  root : R s.root f.root
  top : R s.top f.top
  below : List.Forall₂ R s.below f.below

theorem Frames.related_ofRoot {root : StateId} {state : σ} (h : R root state) :
    Frames.Related R (.ofRoot root) (.ofRoot state) := ⟨h, h, .nil⟩

theorem Frames.Related.toList {s : Stack} {f : Frames σ} (related : Frames.Related R s f) :
    List.Forall₂ R s.frames f.toList := by
  rw [Stack.frames, List.reverse_cons, Frames.toList]
  exact List.rel_append (List.forall₂_reverse_iff.mpr related.below) (.cons related.top .nil)

theorem Frames.Related.move {s : Stack} {f : Frames σ} (related : Frames.Related R s f) (limit : Nat)
    {t : Transition} {move : Move σ} (same : Move.Related R t move) :
    Frames.Related R (s.apply limit t).1 (f.move limit move).1 ∧
      Counts.ofEffect (s.apply limit t).2 = (f.move limit move).2 := by
  obtain ⟨root, top, below⟩ := id related
  have depth : s.depth = f.toList.length := by
    rw [← Stack.length_frames, related.toList.length_eq]
  cases same with
  | stay => exact ⟨related, rfl⟩
  | goto h => exact ⟨⟨root, h, below⟩, rfl⟩
  | push h =>
    simp only [Stack.apply, Frames.move, depth]
    split
    · exact ⟨⟨root, h, .cons top below⟩, rfl⟩
    · exact ⟨related, rfl⟩
  | pop =>
    obtain ⟨sRoot, sTop, sBelow⟩ := s
    obtain ⟨fRoot, fTop, fBelow⟩ := f
    cases below with
    | nil => exact ⟨related_ofRoot root, rfl⟩
    | cons next rest => exact ⟨⟨root, next, rest⟩, rfl⟩

variable {m : Machine σ} {t : Tokenizer}

theorem takes_of_related {rule : Lexicon.Rule} {arm : Arm σ} (related : Arm.Related R rule arm)
    (settings : Settings) (spent : Nat) (found : Match) :
    takes settings spent arm found.length =
      !(found.isEmpty && (rule.transition = .stay ||
        !decide (spent < settings.maxZeroWidthSteps))) := by
  obtain ⟨slot, pattern, tokens, transition⟩ := rule
  obtain ⟨pattern', tokens', move⟩ := arm
  have move : Move.Related R transition move := related.move
  simp only [takes, Match.isEmpty]
  cases found.length with
  | succ n => simp
  | zero => cases move <;> simp

theorem choose_related {rules : List Lexicon.Rule} {arms : List (Arm σ)}
    (all : List.Forall₂ (Arm.Related R) rules arms) (settings : Settings) (line : Line)
    (i spent : Nat) :
    Option.Rel (fun taken chosen => Arm.Related R taken.1 chosen.1 ∧ taken.2 = chosen.2)
      (rules.findSome? (fun rule =>
        match rule.pattern.matchAt? line i with
        | some found =>
          if found.isEmpty && (rule.transition = .stay || !decide (spent < settings.maxZeroWidthSteps))
          then none else some (rule, found)
        | none => none))
      (arms.findSome? (fun arm =>
        (arm.pattern.matchAt? line i).bind (fun found =>
          if takes settings spent arm found.length then some (arm, found) else none))) := by
  induction all with
  | nil => exact .none
  | @cons rule arm rules arms related _ ih =>
    rw [List.findSome?_cons, List.findSome?_cons, related.pattern]
    cases matched : arm.pattern.matchAt? line i with
    | none => exact ih
    | some found =>
      simp only [Option.bind_some, takes_of_related related]
      cases found.isEmpty && (rule.transition = .stay ||
        !decide (spent < settings.maxZeroWidthSteps)) with
      | true => exact ih
      | false => exact .some ⟨related, rfl⟩

structure Config.Related (R : StateId → σ → Prop) (c : Cursor) (d : Config σ) : Prop where
  position : c.position = d.position
  frames : Frames.Related R c.stack d.frames
  spent : c.spent = d.spent

theorem matchAt?_related (represented : m.Represented t.lexicon R) (line : Line) {c : Cursor}
    {d : Config σ} (related : Config.Related R c d) :
    Option.Rel (fun taken chosen => Arm.Related R taken.1 chosen.1 ∧ taken.2 = chosen.2)
      (t.matchAt? line c) (m.choose t.settings line d.position d.spent d.frames.top) := by
  have rules := represented.rules _ _ related.frames.top
  rw [← related.position, ← related.spent]
  exact choose_related rules t.settings line c.position c.spent

theorem step_related (represented : m.Represented t.lexicon R) (line : Line) {c : Cursor}
    {d : Config σ} (related : Config.Related R c d) :
    (t.step line c).1.pieces = (m.step t.settings line d).1 ∧
      (t.step line c).1.counts = (m.step t.settings line d).2.1 ∧
      Config.Related R (t.step line c).2 (m.step t.settings line d).2.2 := by
  have default := represented.defaultToken _ _ related.frames.top
  have choice := matchAt?_related represented line related
  unfold step
  cases found : t.matchAt? line c with
  | none =>
    rw [found] at choice
    cases chosen : m.choose t.settings line d.position d.spent d.frames.top with
    | some => simp [chosen] at choice
    | none =>
      rw [Tokenizer.step_of_none found, ← default, ← related.position]
      refine ⟨?_, ?_, rfl, related.frames, rfl⟩
      · cases (t.lexicon.state c.stack.top).defaultToken <;> rfl
      · cases (t.lexicon.state c.stack.top).defaultToken <;> rfl
  | some match_ =>
    rw [found] at choice
    cases chosen : m.choose t.settings line d.position d.spent d.frames.top with
    | none => simp [chosen] at choice
    | some choice_ =>
      rw [chosen] at choice
      obtain ⟨rule, taken⟩ := match_
      obtain ⟨arm, taken'⟩ := choice_
      obtain ⟨arms, rfl⟩ : Arm.Related R rule arm ∧ taken = taken' := by
        cases choice with
        | some both => exact both
      obtain ⟨frames, counts⟩ := related.frames.move t.settings.maxStackDepth arms.move
      rw [Tokenizer.step_of_match found, ← default, ← related.spent]
      refine ⟨?_, counts, rfl, frames, rfl⟩
      simp only [Step.pieces, arms.tokens]

/-- Scans from related places yield the same and leave related stacks. -/
theorem run_related (represented : m.Represented t.lexicon R) (line : Line) (c : Cursor)
    (d : Config σ) (related : Config.Related R c d) :
    let scan : Scan := ⟨line, (t.scanFrom line c.position c.stack c.spent).1,
      (t.scanFrom line c.position c.stack c.spent).2⟩
    scan.steps.flatMap Step.pieces = (m.run t.settings line d).1 ∧
      scan.counts = (m.run t.settings line d).2.1 ∧
      Frames.Related R scan.stack (m.run t.settings line d).2.2 := by
  rw [run]
  by_cases before : c.position < line.size
  · obtain ⟨pieces, counts, next⟩ := step_related represented line related
    obtain ⟨others, more, final⟩ := run_related represented line _ _ next
    rw [dif_pos (related.position ▸ before), Tokenizer.scanFrom_step before]
    refine ⟨?_, ?_, final⟩
    · simp only [List.flatMap_cons, pieces]
      exact congrArg _ others
    · rw [Scan.counts_cons, counts]
      exact congrArg _ more
  · rw [dif_neg (related.position ▸ before), Tokenizer.scanFrom_end (Nat.not_lt.mp before)]
    exact ⟨rfl, rfl, related.frames⟩
termination_by (line.size - c.position, t.settings.maxZeroWidthSteps - c.spent)
decreasing_by exact Tokenizer.step_decreases before

theorem line_related (represented : m.Represented t.lexicon R) {stack : Stack} {frames : Frames σ}
    (related : Frames.Related R stack frames) (text : String) :
    (t.line stack text).tokens = (m.line t.settings frames text).tokens ∧
      (t.line stack text).counts = (m.line t.settings frames text).counts ∧
      Frames.Related R (t.line stack text).stack (m.line t.settings frames text).frames := by
  have start : Config.Related R ⟨0, stack, 0⟩ ⟨0, frames, 0⟩ := ⟨rfl, related, rfl⟩
  obtain ⟨pieces, counts, final⟩ := run_related represented (.ofString text) _ _ start
  refine ⟨?_, counts, final⟩
  simp only [Tokenizer.line, Scan.tokens, line]
  rw [← pieces]
  rfl

theorem lines_related (represented : m.Represented t.lexicon R) {stack : Stack} {frames : Frames σ}
    (related : Frames.Related R stack frames) (texts : List String) :
    List.Forall₂ (fun out reading => out.tokens = reading.tokens ∧ out.counts = reading.counts ∧
        Frames.Related R out.stack reading.frames)
      (t.lines stack texts) (m.lines t.settings frames texts) := by
  induction texts generalizing stack frames with
  | nil => exact .nil
  | cons text rest ih =>
    have first := line_related represented related text
    exact .cons first (ih first.2.2)

end Machine

end StackLexer
