import StackLexer.Proofs.Lexing.Visits
import StackLexer.Proofs.Text.Slice

/-! What the counts of a line count.
Each count is the number of visits of one kind: to a rule that pushes, below the depth limit or at it, to
a rule that pops, one of several frames or the only one, or to a character that nothing claims. The stack
gets deeper and shallower by what was pushed and popped, whatever was refused or reset on the way, and
each refused push and each stalled character has its event. -/

namespace StackLexer

namespace Stack

theorem frames_push (s : Stack) (limit : Nat) (id : StateId) :
    (s.apply limit (.push id)).1.frames = if limit ≤ s.depth then s.frames else s.frames ++ [id] := by
  by_cases deep : limit ≤ s.depth
  · rw [if_pos deep, apply, if_neg (Nat.not_lt.mpr deep)]
  · rw [if_neg deep, apply, if_pos (Nat.not_le.mp deep)]
    simp [frames]

theorem frames_pop (s : Stack) (limit : Nat) :
    (s.apply limit .pop).1.frames = if s.depth = 1 then [s.root] else s.frames.dropLast := by
  obtain ⟨root, top, below⟩ := s
  cases below with
  | nil => rfl
  | cons next rest => simp [apply, frames, depth]

theorem depth_apply (s : Stack) (limit : Nat) (t : Transition) :
    (s.apply limit t).1.depth + (Counts.ofEffect (s.apply limit t).2).pops =
      s.depth + (Counts.ofEffect (s.apply limit t).2).pushes := by
  obtain ⟨root, top, below⟩ := s
  cases t with
  | stay | goto => rfl
  | push id =>
    simp only [apply]
    split <;> rfl
  | pop => cases below <;> rfl

end Stack

namespace Tokenizer

variable {t : Tokenizer} {line : Line} {c : Cursor}

def taken? (t : Tokenizer) (line : Line) (c : Cursor) : Option Transition :=
  (t.matchAt? line c).map (fun found => found.1.transition)

def pushes (t : Tokenizer) (line : Line) (c : Cursor) : Bool :=
  match t.taken? line c with
  | some (.push _) => true
  | _ => false

def pops (t : Tokenizer) (line : Line) (c : Cursor) : Bool := t.taken? line c = some .pop

def stalls (t : Tokenizer) (line : Line) (c : Cursor) : Bool :=
  t.taken? line c = none && (t.lexicon.state c.stack.top).defaultToken.isNone

def full (t : Tokenizer) (c : Cursor) : Bool := t.settings.maxStackDepth ≤ c.stack.depth

theorem counts_step (t : Tokenizer) (line : Line) (c : Cursor) :
    (t.step line c).1.counts =
      { stalls := if t.stalls line c then 1 else 0
        pushes := if t.pushes line c && !t.full c then 1 else 0
        pops := if t.pops line c && !decide (c.stack.depth = 1) then 1 else 0
        underflows := if t.pops line c && c.stack.depth = 1 then 1 else 0
        overflows := if t.pushes line c && t.full c then 1 else 0 } := by
  unfold stalls pushes pops full taken?
  cases found : t.matchAt? line c with
  | none =>
    rw [step_of_none found]
    cases (t.lexicon.state c.stack.top).defaultToken <;> simp [Step.counts]
  | some match_ =>
    obtain ⟨rule, m⟩ := match_
    rw [step_of_match found]
    simp only [Step.counts]
    cases leads : rule.transition with
    | stay | goto => simp [Stack.apply, Counts.ofEffect, leads]
    | push id =>
      by_cases deep : t.settings.maxStackDepth ≤ c.stack.depth
      · simp [Stack.apply, Counts.ofEffect, leads, deep, Nat.not_lt.mpr deep]
      · simp [Stack.apply, Counts.ofEffect, leads, deep, Nat.not_le.mp deep]
    | pop =>
      obtain ⟨position, ⟨root, top, below⟩, spent⟩ := c
      cases below <;> simp [Stack.apply, Counts.ofEffect, leads, Stack.depth]

theorem event_step (t : Tokenizer) (line : Line) (c : Cursor) :
    (t.step line c).1.event? line t.settings.maxStackDepth =
      if t.pushes line c && t.full c then
        some (.pushRefused c.stack.depth t.settings.maxStackDepth)
      else if t.stalls line c then some (.stalled (line.offset c.position) c.stack.top.index)
      else none := by
  unfold stalls pushes full taken?
  cases found : t.matchAt? line c with
  | none =>
    rw [step_of_none found]
    cases (t.lexicon.state c.stack.top).defaultToken <;> simp [Step.event?]
  | some match_ =>
    obtain ⟨rule, m⟩ := match_
    rw [step_of_match found]
    cases leads : rule.transition with
    | stay | goto => simp [Stack.apply, Step.event?, leads]
    | push id =>
      by_cases deep : t.settings.maxStackDepth ≤ c.stack.depth
      · simp [Stack.apply, Step.event?, leads, deep, Nat.not_lt.mpr deep]
      · simp [Stack.apply, Step.event?, leads, deep, Nat.not_le.mp deep]
    | pop =>
      obtain ⟨position, ⟨root, top, below⟩, spent⟩ := c
      cases below <;> simp [Stack.apply, Step.event?, leads]

theorem stack_of_taken {transition : Transition} (taken : t.taken? line c = some transition) :
    (t.step line c).2.stack = (c.stack.apply t.settings.maxStackDepth transition).1 := by
  obtain ⟨⟨rule, m⟩, found, rfl⟩ := Option.map_eq_some_iff.mp taken
  rw [step_of_match found]

theorem next_of_stalls (stalled : t.stalls line c) :
    (t.step line c).2 = ⟨c.position + 1, c.stack, 0⟩ := by
  simp only [stalls, taken?, Bool.and_eq_true, decide_eq_true_eq, Option.map_eq_none_iff] at stalled
  rw [step_of_none stalled.1]

theorem depth_step (t : Tokenizer) (line : Line) (c : Cursor) :
    (t.step line c).2.stack.depth + (t.step line c).1.counts.pops =
      c.stack.depth + (t.step line c).1.counts.pushes := by
  cases found : t.matchAt? line c with
  | none =>
    rw [step_of_none found]
    cases (t.lexicon.state c.stack.top).defaultToken <;> rfl
  | some match_ =>
    rw [step_of_match found]
    exact c.stack.depth_apply t.settings.maxStackDepth match_.1.transition

def countsOf (t : Tokenizer) (line : Line) (cursors : List Cursor) : Counts :=
  Scan.counts ⟨line, cursors.map (fun c => (t.step line c).1), .ofRoot ⟨0⟩⟩

theorem countsOf_cons (t : Tokenizer) (line : Line) (c : Cursor) (rest : List Cursor) :
    t.countsOf line (c :: rest) = (t.step line c).1.counts + t.countsOf line rest :=
  Scan.counts_cons line _ _ _

theorem counts_line (t : Tokenizer) (stack : Stack) (text : String) :
    (t.line stack text).counts =
      t.countsOf (.ofString text) (t.visits (.ofString text) ⟨0, stack, 0⟩) := by
  rw [countsOf, ← steps_scan]
  rfl

theorem countsOf_eq (t : Tokenizer) (line : Line) (cursors : List Cursor) :
    t.countsOf line cursors =
      { stalls := cursors.countP (t.stalls line)
        pushes := cursors.countP (fun c => t.pushes line c && !t.full c)
        pops := cursors.countP (fun c => t.pops line c && !decide (c.stack.depth = 1))
        underflows := cursors.countP (fun c => t.pops line c && c.stack.depth = 1)
        overflows := cursors.countP (fun c => t.pushes line c && t.full c) } := by
  induction cursors with
  | nil => rfl
  | cons c rest ih =>
    simp only [countsOf_cons, ih, counts_step, Counts.add_eq, List.countP_cons, Nat.add_comm]

theorem depth_last (t : Tokenizer) (line : Line) (c : Cursor) :
    (t.last line c).stack.depth + (t.countsOf line (t.visits line c)).pops =
      c.stack.depth + (t.countsOf line (t.visits line c)).pushes := by
  induction c using t.visits_induction line with
  | done c beyond => rw [last_end beyond, visits_end beyond]; rfl
  | step c before ih =>
    have here := t.depth_step line c
    rw [last_step before, visits_step before, countsOf_cons, Counts.add_eq]
    simp only
    omega

theorem events_line (t : Tokenizer) (stack : Stack) (text : String) :
    (t.line stack text).events =
      (t.visits (.ofString text) ⟨0, stack, 0⟩).filterMap
        (fun c => (t.step (.ofString text) c).1.event? (.ofString text) t.settings.maxStackDepth) := by
  simp only [Tokenizer.line, Scan.events]
  rw [steps_scan, List.filterMap_map]
  rfl

theorem stalls_ascend (t : Tokenizer) (line : Line) (c : Cursor) :
    ((t.visits line c).filter (t.stalls line)).Pairwise
      (fun c d => line.offset c.position < line.offset d.position) := by
  induction c using t.visits_induction line with
  | done c beyond => simp [visits_end beyond]
  | step c before ih =>
    rw [visits_step before, List.filter_cons]
    split
    · rename_i stalled
      refine List.pairwise_cons.mpr ⟨fun d member => ?_, ih⟩
      obtain ⟨later, _⟩ := List.mem_filter.mp member
      have after := (visits_bounds line _ d later).1
      rw [next_of_stalls stalled] at after
      exact line.offset_lt after before
    · exact ih

/-- The counts, the events and the stack of a line account for the visits of its scan. -/
structure Accounts (t : Tokenizer) (line : Line) (stack : Stack) (visits : List Cursor)
    (out : LineTokens) : Prop where
  steps : (t.scan stack line).steps = visits.map (fun c => (t.step line c).1)
  pushes : out.counts.pushes + out.counts.overflows = visits.countP (t.pushes line)
  pops : out.counts.pops + out.counts.underflows = visits.countP (t.pops line)
  overflows : out.counts.overflows =
    visits.countP (fun c => t.pushes line c && t.settings.maxStackDepth ≤ c.stack.depth)
  underflows : out.counts.underflows = visits.countP (fun c => t.pops line c && c.stack.depth = 1)
  pushed : ∀ c ∈ visits, ∀ id, t.taken? line c = some (.push id) →
    (t.step line c).2.stack.frames =
      if t.settings.maxStackDepth ≤ c.stack.depth then c.stack.frames else c.stack.frames ++ [id]
  popped : ∀ c ∈ visits, t.taken? line c = some .pop →
    (t.step line c).2.stack.frames =
      if c.stack.depth = 1 then [c.stack.root] else c.stack.frames.dropLast
  depth : (out.stack.depth : Int) = stack.depth + out.counts.pushes - out.counts.pops
  stalls : out.counts.stalls = visits.countP (t.stalls line)
  stalled : ∀ c ∈ visits, t.stalls line c → (t.step line c).2 = ⟨c.position + 1, c.stack, 0⟩
  stallEvents : out.counts.stalls = out.events.countP (·.level = .trace)
  stallsTold : out.events.filter (·.level = .trace) = (visits.filter (t.stalls line)).map
    (fun c => .stalled (line.offset c.position) c.stack.top.index)
  ascending : (visits.filter (t.stalls line)).Pairwise
    (fun c d => line.offset c.position < line.offset d.position)
  refusalEvents : out.counts.overflows = out.events.countP (·.level = .warn)
  refusalsTold : out.events.filter (·.level = .warn) =
    (visits.filter (fun c => t.pushes line c && t.settings.maxStackDepth ≤ c.stack.depth)).map
      (fun c => .pushRefused c.stack.depth t.settings.maxStackDepth)

theorem countP_split (cursors : List Cursor) (p q : Cursor → Bool) :
    cursors.countP (fun c => p c && !q c) + cursors.countP (fun c => p c && q c) =
      cursors.countP p := by
  rw [List.countP_eq_countP_filter_add cursors p q, List.countP_filter, List.countP_filter,
    Nat.add_comm]

theorem events_of_kind {cursors : List Cursor} {told : Cursor → Option Event} {kind : Event → Bool}
    {gives : Cursor → Bool} {event : Cursor → Event}
    (one : ∀ c, (told c).filter kind = if gives c then some (event c) else none) :
    (cursors.filterMap told).filter kind = (cursors.filter gives).map event := by
  rw [List.filter_filterMap, ← List.filterMap_eq_map, List.filterMap_filter]
  exact congrFun (congrArg List.filterMap (funext one)) cursors

theorem refusal_step (t : Tokenizer) (line : Line) (c : Cursor) :
    ((t.step line c).1.event? line t.settings.maxStackDepth).filter (·.level = .warn) =
      if t.pushes line c && t.full c then
        some (.pushRefused c.stack.depth t.settings.maxStackDepth) else none := by
  rw [event_step]
  split
  · rfl
  · split <;> rfl

theorem stall_step (t : Tokenizer) (line : Line) (c : Cursor) :
    ((t.step line c).1.event? line t.settings.maxStackDepth).filter (·.level = .trace) =
      if t.stalls line c then some (.stalled (line.offset c.position) c.stack.top.index)
      else none := by
  rw [event_step]
  split
  · rename_i refused
    -- A push is refused only where a rule matches, so that nothing stalls there.
    have matches_ : t.stalls line c = false := by
      simp only [pushes, Bool.and_eq_true] at refused
      simp only [stalls]
      split at refused
      · simp_all
      · simp at refused
    rw [matches_]
    rfl
  · split <;> rfl

/-- The counts, the events and the stack of any line account for the visits of its scan, from whatever
stack and under whatever settings. -/
theorem line_accounts (t : Tokenizer) (stack : Stack) (text : String) :
    t.Accounts (.ofString text) stack (t.visits (.ofString text) ⟨0, stack, 0⟩)
      (t.line stack text) := by
  have counts := (t.counts_line stack text).trans (t.countsOf_eq _ _)
  have events := t.events_line stack text
  have stalls : (t.line stack text).events.filter (·.level = .trace) = _ :=
    events ▸ events_of_kind (t.stall_step (.ofString text))
  have refusals : (t.line stack text).events.filter (·.level = .warn) = _ :=
    events ▸ events_of_kind (t.refusal_step (.ofString text))
  have depth : (t.line stack text).stack.depth + (t.line stack text).counts.pops =
      stack.depth + (t.line stack text).counts.pushes := by
    have balance := t.depth_last (.ofString text) ⟨0, stack, 0⟩
    rwa [← counts_line, ← stack_scan] at balance
  exact {
    steps := t.steps_scan stack _
    pushes := by
      rw [counts]
      exact countP_split _ _ _
    pops := by
      rw [counts]
      exact countP_split _ _ _
    overflows := by
      rw [counts]
      rfl
    underflows := by rw [counts]
    pushed := fun c _ id taken => stack_of_taken taken ▸ c.stack.frames_push _ id
    popped := fun c _ taken => stack_of_taken taken ▸ c.stack.frames_pop _
    depth := by omega
    stalls := by rw [counts]
    stalled := fun c _ stalled => next_of_stalls stalled
    stallEvents := by
      rw [List.countP_eq_length_filter, stalls, List.length_map, ← List.countP_eq_length_filter,
        counts]
    stallsTold := stalls
    ascending := t.stalls_ascend _ _
    refusalEvents := by
      rw [List.countP_eq_length_filter, refusals, List.length_map, ← List.countP_eq_length_filter,
        counts]
    refusalsTold := refusals }

end Tokenizer

end StackLexer
