import StackLexer.Proofs.Lexing.Discipline
import StackLexer.Proofs.Lexing.History

/-! Stacks of balanced rule sets.
On a stack whose frames were all pushed, but for the root at the bottom, a rule of a balanced rule set that
goes back finds a frame to go back to. Every step leaves such a stack, also one that is refused its push, so
that no session ever falls back on its root. -/

namespace StackLexer

variable {inner : StateId → Prop} {root : StateId} {limit : Nat}

namespace Stack

/-- The root of a stack is its outermost frame, and the frames above it are states of a set. -/
structure Nested (inner : StateId → Prop) (root : StateId) (s : Stack) : Prop where
  frames : ∃ above, s.frames = root :: above ∧ ∀ id ∈ above, inner id
  root : s.root = root

variable {s : Stack}

theorem nested_ofRoot (inner : StateId → Prop) (root : StateId) : (ofRoot root).Nested inner root :=
  ⟨⟨[], rfl, by simp⟩, rfl⟩

theorem Nested.bottom (nested : s.Nested inner root) : s.frames.head? = some root := by
  obtain ⟨above, frames, _⟩ := nested.frames
  rw [frames, List.head?_cons]

theorem Nested.top (nested : s.Nested inner root) :
    s.depth = 1 ∧ s.top = root ∨ s.depth ≠ 1 ∧ inner s.top := by
  obtain ⟨above, frames, all⟩ := nested.frames
  have depth : s.depth = above.length + 1 := by rw [← length_frames, frames, List.length_cons]
  have last : (root :: above).getLast? = some s.top := by
    rw [← frames, Stack.frames, List.getLast?_reverse, List.head?_cons]
  cases above with
  | nil => exact .inl ⟨depth, (Option.some.inj last).symm⟩
  | cons id rest =>
    rw [List.getLast?_cons_cons] at last
    exact .inr ⟨by rw [depth, List.length_cons]; omega, all _ (List.mem_of_getLast? last)⟩

theorem Nested.push (nested : s.Nested inner root) {id : StateId} (target : inner id) :
    (s.apply limit (.push id)).1.Nested inner root := by
  obtain ⟨above, frames, all⟩ := nested.frames
  refine ⟨?_, (s.root_apply limit _).trans nested.root⟩
  rw [frames_push, frames]
  split
  · exact ⟨above, rfl, all⟩
  · refine ⟨above ++ [id], rfl, ?_⟩
    rw [List.forall_mem_append, List.forall_mem_singleton]
    exact ⟨all, target⟩

theorem Nested.pop (nested : s.Nested inner root) (deep : s.depth ≠ 1) :
    (s.apply limit .pop).1.Nested inner root := by
  obtain ⟨above, frames, all⟩ := nested.frames
  refine ⟨⟨above.dropLast, ?_, ?_⟩, (s.root_apply limit _).trans nested.root⟩
  · have some_ : above ≠ [] := by
      rintro rfl
      exact deep (by rw [← length_frames, frames]; rfl)
    rw [frames_pop, if_neg deep, frames, List.dropLast_cons_of_ne_nil some_]
  · exact fun id member => all id (List.mem_of_mem_dropLast member)

end Stack

variable {set : RuleSet}

namespace Tokenizer

variable {t : Tokenizer} {line : Line} {c : Cursor} {name : String}

section

variable [RegexEngine] (loaded : set.load.2 = .ok t.lexicon) (balanced : set.Balanced)
  (named : set.StandsFor root ⟨name, []⟩)

include loaded balanced named

/-- On such a stack a rule stays, pushes or goes back to a frame that is there. -/
theorem taken_nested (nested : c.stack.Nested set.Inner root)
    {transition : Transition} (taken : t.taken? line c = some transition) :
    transition = .stay ∨ (∃ id, transition = .push id ∧ set.Inner id) ∨
      transition = .pop ∧ c.stack.depth ≠ 1 := by
  obtain ⟨⟨rule, m⟩, found, rfl⟩ := Option.map_eq_some_iff.mp taken
  obtain ⟨member, _, _⟩ := Lexicon.State.firstMatch?_eq_some found
  -- On the root alone the rule is one of a named list, which does not go back.
  rcases nested.top with ⟨_, top⟩ | ⟨deep, place, stands, _⟩
  · rcases balanced.transition loaded (top ▸ named) member with stays | pushes | ⟨_, absurd_⟩
    · exact .inl stays
    · exact .inr (.inl pushes)
    · exact absurd rfl absurd_
  · rcases balanced.transition loaded stands member with stays | pushes | ⟨pops, _⟩
    · exact .inl stays
    · exact .inr (.inl pushes)
    · exact .inr (.inr ⟨pops, deep⟩)

theorem step_nested (nested : c.stack.Nested set.Inner root) :
    (t.step line c).2.stack.Nested set.Inner root := by
  cases taken : t.taken? line c with
  | none =>
    rw [step_of_none (Option.map_eq_none_iff.mp taken)]
    exact nested
  | some transition =>
    rw [stack_of_taken taken]
    rcases taken_nested loaded balanced named nested taken with rfl | ⟨id, rfl, target⟩ | ⟨rfl, deep⟩
    · exact nested
    · exact nested.push target
    · exact nested.pop deep

theorem no_underflow (nested : c.stack.Nested set.Inner root) :
    (t.pops line c && c.stack.depth = 1) = false := by
  simp only [pops, Bool.and_eq_false_imp, decide_eq_true_eq, decide_eq_false_iff_not]
  intro taken
  rcases taken_nested loaded balanced named nested taken with stays | ⟨_, pushes, _⟩ | ⟨_, deep⟩
  · contradiction
  · contradiction
  · exact deep

theorem visits_nested (nested : c.stack.Nested set.Inner root) :
    ∀ d ∈ t.visits line c, d.stack.Nested set.Inner root :=
  visits_invariant nested (fun _ _ nested => step_nested loaded balanced named nested)

theorem line_nested {stack : Stack} (nested : stack.Nested set.Inner root) (text : String) :
    (t.line stack text).stack.Nested set.Inner root ∧ (t.line stack text).counts.underflows = 0 := by
  constructor
  · obtain ⟨d, run, _, final⟩ := t.run_scan stack (.ofString text)
    have final : (t.line stack text).stack = d.stack := final
    rw [final]
    exact run.invariant (fun c => c.stack.Nested set.Inner root) nested
      (fun _ _ nested => step_nested loaded balanced named nested)
  · have each : ∀ d ∈ t.visits (.ofString text) ⟨0, stack, 0⟩, d.stack.Nested set.Inner root :=
      visits_nested loaded balanced named nested
    rw [counts_line, countsOf_eq]
    refine List.countP_eq_zero.mpr (fun d visited => ?_)
    rw [no_underflow loaded balanced named (each d visited)]
    exact Bool.false_ne_true

theorem lines_nested {stack : Stack} (nested : stack.Nested set.Inner root) (texts : List String) :
    (t.stackAfter stack texts).Nested set.Inner root ∧
      (Totals.over (t.lines stack texts)).counts.underflows = 0 := by
  -- The stack that a line leaves is such a stack again, from which the lines after it begin.
  induction texts generalizing stack with
  | nil => exact ⟨nested, rfl⟩
  | cons text rest ih =>
    obtain ⟨next, none_⟩ := line_nested loaded balanced named nested text
    obtain ⟨last, others⟩ := ih next
    refine ⟨last, ?_⟩
    simp only [Totals.over, lines, List.map_cons, List.sum_cons] at others ⊢
    omega

end

theorem depth_of_stalls [RegexEngine] (loaded : set.load.2 = .ok t.lexicon) (defaulted : set.Defaulted)
    (nested : c.stack.Nested set.Inner root) (stalled : t.stalls line c) : c.stack.depth = 1 := by
  rcases nested.top with ⟨shallow, _⟩ | ⟨_, pushed⟩
  · exact shallow
  · have gives := defaulted.state loaded pushed
    simp only [stalls, Bool.and_eq_true, Option.isNone_iff_eq_none] at stalled
    simp [stalled.2] at gives

end Tokenizer

namespace Session

variable {x : Lexicon} {settings : Settings} {initial : Stack} {s : Session}

theorem Begun.stands [RegexEngine] (begun : Begun ⟨x, settings⟩ initial s) (loaded : set.load.2 = .ok x) :
    ∃ root name, initial = .ofRoot root ∧ set.StandsFor root ⟨name, []⟩ := by
  cases begun with
  | new =>
    obtain ⟨a, start, made, first, lexicon⟩ := RuleSet.load_eq_ok_iff.mp loaded
    have named : x.stateId? RuleSet.startName = some x.start := by
      rw [lexicon, Lexicon.stateId?, first]
      rfl
    exact ⟨x.start, _, rfl, RuleSet.source_of_stateId? loaded named⟩
  | @named name initial s stack created =>
    obtain ⟨root, named, rfl⟩ := Option.map_eq_some_iff.mp stack
    exact ⟨root, name, rfl, RuleSet.source_of_stateId? loaded named⟩

/-- A session of a balanced rule set begins on some root. Whatever has been asked of it, no document makes
it underflow, and the root stays the outermost frame at each step. If every pushed list has a default
token, too, only characters on the root alone stall. The bundled grammar is such a rule set. -/
theorem balanced_documents [RegexEngine] (loaded : set.load.2 = .ok x) (balanced : set.Balanced)
    (begun : Begun ⟨x, settings⟩ initial s) :
    (∃ root, initial = .ofRoot root ∧ ∀ (before : List Call) (text : String),
      let t : Tokenizer := ⟨x, settings⟩
      let now := (s.calls before).2
      now.stack.frames.head? = some root ∧ now.totals.counts.underflows = 0 ∧
        (now.document text).2.1.totals.counts.underflows = 0 ∧
        ∀ front line rest, Text.lines text = front ++ line :: rest →
          ∀ c ∈ t.visits (.ofString line) ⟨0, (now.lines front).2.1.stack, 0⟩,
            c.stack.frames.head? = some root ∧
              (t.step (.ofString line) c).2.stack.frames.head? = some root ∧
              (t.step (.ofString line) c).1.counts.underflows = 0 ∧
              (set.Defaulted → t.stalls (.ofString line) c → c.stack.depth = 1)) ∧
      ∃ bundled, BundledGrammar.stringTemplate.ruleSet = .ok bundled ∧ bundled.Balanced ∧
        bundled.Defaulted := by
  obtain ⟨root, name, rfl, named⟩ := begun.stands loaded
  refine ⟨⟨root, rfl, fun before text => ?_⟩, RuleSet.stringTemplate_balanced⟩
  intro t now
  have loaded : set.load.2 = .ok t.lexicon := loaded
  have begins := Stack.nested_ofRoot set.Inner root
  have at_ {texts : List String} {s : Session} (after : After t (.ofRoot root) texts s) :
      s.stack.Nested set.Inner root ∧ s.totals.counts.underflows = 0 := by
    rw [after.stack, after.totals]
    exact Tokenizer.lines_nested loaded balanced named begins texts
  have after : After t (.ofRoot root) (sinceReset before) now := begun.after.calls before
  refine ⟨(at_ after).1.bottom, (at_ after).2, (at_ (after.lines (Text.lines text))).2, ?_⟩
  intro front line rest _ c visited
  have nested := Tokenizer.visits_nested loaded balanced named (at_ (after.lines front)).1 c visited
  refine ⟨nested.bottom, (Tokenizer.step_nested loaded balanced named nested).bottom, ?_,
    fun defaulted => Tokenizer.depth_of_stalls loaded defaulted nested⟩
  rw [Tokenizer.counts_step]
  simp only [Tokenizer.no_underflow loaded balanced named nested]
  rfl

def nest : RuleSet :=
  RuleSet.empty
    |>.withState "start" [Rule.including "open"]
    |>.withState "open"
      [(Rule.single "open" "\\(").withPush
        [Rule.including "open", (Rule.single "close" "\\)").withNext "pop", Rule.default "inner"]]

/-- The last bracket of the document is one too many, and stalls as all on the root does. -/
theorem nest_balanced_documents :
    ∃ x s, nest.load.2 = .ok x ∧ nest.Balanced ∧ nest.Defaulted ∧ Begun ⟨x, {}⟩ (.ofRoot ⟨1⟩) s ∧
      let t : Tokenizer := ⟨x, {}⟩
      let now := (s.calls [.line "(("]).2
      (now.document "a))b)").2.1.totals.counts.underflows = 0 ∧
        ∀ c ∈ t.visits (.ofString "a))b)") ⟨0, now.stack, 0⟩,
          c.stack.frames.head? = some ⟨1⟩ ∧ (t.stalls (.ofString "a))b)") c → c.stack.depth = 1) := by
  have begins : nest.load.2.toOption.bind (fun x => x.stateId? "start") = some ⟨1⟩ := by cbv
  obtain ⟨x, found, named⟩ := Option.bind_eq_some_iff.mp begins
  have loaded := RuleSet.load_of_toOption found
  have stack : Tokenizer.initialAt? ⟨x, {}⟩ "start" = some (.ofRoot ⟨1⟩) := by
    rw [Tokenizer.initialAt?, named]
    rfl
  have created : startingAt? ⟨x, {}⟩ "start" = some (.withStack ⟨x, {}⟩ (.ofRoot ⟨1⟩)) := by
    rw [startingAt?, stack]
    rfl
  have begun := Begun.named stack created
  have balanced : nest.Balanced := RuleSet.forall_entries (by decide +kernel)
  have defaulted : nest.Defaulted := RuleSet.defaulted_of_own (by decide +kernel) (by decide +kernel)
  obtain ⟨⟨root, same, all⟩, _⟩ := balanced_documents loaded balanced begun
  obtain rfl : (⟨1⟩ : StateId) = root := congrArg Stack.root same
  obtain ⟨_, _, none_, each⟩ := all [.line "(("] "a))b)"
  refine ⟨x, _, loaded, balanced, defaulted, begun, none_, fun c visited => ?_⟩
  obtain ⟨bottom, _, _, stalled⟩ := each [] "a))b)" [] (by decide) c visited
  exact ⟨bottom, stalled defaulted⟩

end Session

end StackLexer
