import StackLexer.Proofs.Grammar.Sources
import StackLexer.Proofs.Lexing.Visits

/-! Steps that take nothing from the line.
An empty match counts for every rule with a transition, and most transitions change the stack. Some do
not: going to the state that is on top, pushing at the depth limit, and popping the root itself. A rule
with one of these can match over and over at one position, and only the cap on empty matches ends that. -/

namespace StackLexer

namespace Stack

variable {s : Stack} {limit : Nat}

/-- A transition that leaves the stack as it is, although the rule asks for another one. -/
def Vain (limit : Nat) (s : Stack) : Transition → Prop
  | .stay => False
  | .goto id => id = s.top
  | .push _ => limit ≤ s.depth
  | .pop => s.frames = [s.root]

theorem apply_eq_self_iff {t : Transition} :
    (s.apply limit t).1 = s ↔ t = .stay ∨ s.Vain limit t := by
  obtain ⟨root, top, below⟩ := s
  cases t with
  | stay => simp [apply]
  | goto id => simp [apply, Vain]
  | push id =>
    by_cases full : limit ≤ (⟨root, top, below⟩ : Stack).depth
    · simp [apply, Vain, full, Nat.not_lt.mpr full]
    · simp [apply, Vain, full, Nat.not_le.mp full]
  | pop =>
    cases below with
    | nil => simp [apply, ofRoot, Vain, frames, eq_comm]
    | cons next rest =>
      have more : (⟨root, top, next :: rest⟩ : Stack).frames ≠ [root] := by
        intro same
        simpa [frames] using congrArg List.length same
      simp [apply, Vain, more]

end Stack

namespace Tokenizer

variable {t : Tokenizer} {line : Line} {c : Cursor} {rule : Lexicon.Rule} {m : Match}

theorem step_of_empty (accepted : t.matchAt? line c = some (rule, m)) (empty : m.length = 0) :
    (t.step line c).2 =
      ⟨c.position, (c.stack.apply t.settings.maxStackDepth rule.transition).1, c.spent + 1⟩ := by
  obtain ⟨_, matched, _⟩ := Lexicon.State.firstMatch?_eq_some accepted
  have start := (Pattern.bounds _ matched).1
  rw [step_of_match accepted, Match.stop, start, empty, if_pos rfl, Nat.add_zero]

/-- While a line is scanned, an empty match that is accepted has a rule with a transition, and the stack
is another one afterwards, unless the transition is vain on the stack. Then the step does nothing but
spend one of the empty matches that are allowed at the position. -/
theorem empty_match_moves (t : Tokenizer) (stack : Stack) (text : String) :
    ∀ c ∈ t.visits (.ofString text) ⟨0, stack, 0⟩, ∀ rule m,
      t.matchAt? (.ofString text) c = some (rule, m) → m.length = 0 →
      let next := (t.step (.ofString text) c).2
      rule.transition ≠ .stay ∧ c.spent < t.settings.maxZeroWidthSteps ∧
        (next.stack = c.stack ↔ c.stack.Vain t.settings.maxStackDepth rule.transition) ∧
        (c.stack.Vain t.settings.maxStackDepth rule.transition → next = { c with spent := c.spent + 1 }) := by
  intro c _ rule m accepted empty next
  obtain ⟨_, _, taken⟩ := Lexicon.State.firstMatch?_eq_some accepted
  obtain ⟨moves, allowed⟩ := taken empty
  have after : next = _ := step_of_empty accepted empty
  have same : next.stack = c.stack ↔ c.stack.Vain t.settings.maxStackDepth rule.transition := by
    rw [after, Stack.apply_eq_self_iff, or_iff_right moves]
  refine ⟨moves, by simpa using allowed, same, fun vain => ?_⟩
  rw [after, Stack.apply_eq_self_iff.mpr (.inr vain)]

def lookout : RuleSet :=
  RuleSet.empty.withState "start" [(Rule.single "mark" "(?=a)").withNext "start"]

theorem lookout_accepts :
    ∃ x, lookout.load.2 = .ok x ∧ x.stateId? "start" = some ⟨0⟩ ∧
      let t : Tokenizer := ⟨x, {}⟩
      let c : Cursor := ⟨0, .ofRoot ⟨0⟩, 0⟩
      c ∈ t.visits (.ofString "a") c ∧ ∃ rule m, t.matchAt? (.ofString "a") c = some (rule, m) ∧
        m.length = 0 ∧ rule.transition = .goto c.stack.top := by
  have found : lookout.load.2.toOption.bind (fun x =>
      (Tokenizer.matchAt? ⟨x, {}⟩ (.ofString "a") ⟨0, .ofRoot ⟨0⟩, 0⟩).map
        (fun taken => (x.stateId? "start", taken.2.length, taken.1.transition))) =
      some (some ⟨0⟩, 0, .goto ⟨0⟩) := by cbv
  obtain ⟨x, loaded, found⟩ := Option.bind_eq_some_iff.mp found
  obtain ⟨⟨rule, m⟩, accepted, same⟩ := Option.map_eq_some_iff.mp found
  simp only [Prod.mk.injEq] at same
  obtain ⟨named, empty, leads⟩ := same
  have before : 0 < (Line.ofString "a").size := by decide
  refine ⟨x, RuleSet.load_of_toOption loaded, named, ?_, rule, m, accepted, empty, leads⟩
  rw [visits_step before]
  exact List.mem_cons_self

theorem empty_match_moves_lookout :
    ∃ x rule m, lookout.load.2 = .ok x ∧
      let t : Tokenizer := ⟨x, {}⟩
      let c : Cursor := ⟨0, .ofRoot ⟨0⟩, 0⟩
      let next := (t.step (.ofString "a") c).2
      c ∈ t.visits (.ofString "a") c ∧ t.matchAt? (.ofString "a") c = some (rule, m) ∧
        m.length = 0 ∧ rule.transition ≠ .stay ∧ c.spent < t.settings.maxZeroWidthSteps ∧
        (next.stack = c.stack ↔ c.stack.Vain t.settings.maxStackDepth rule.transition) ∧
        (c.stack.Vain t.settings.maxStackDepth rule.transition →
          next = { c with spent := c.spent + 1 }) := by
  obtain ⟨x, loaded, _, visited, rule, m, accepted, empty, _⟩ := lookout_accepts
  exact ⟨x, rule, m, loaded, visited, accepted, empty,
    empty_match_moves ⟨x, {}⟩ (.ofRoot ⟨0⟩) "a" _ visited rule m accepted empty⟩

/-- Not every empty match that is accepted changes the stack. -/
theorem lookout_stays :
    ∃ x root, lookout.load.2 = .ok x ∧ x.stateId? "start" = some root ∧
      ¬ ∀ c ∈ Tokenizer.visits ⟨x, {}⟩ (.ofString "a") ⟨0, .ofRoot root, 0⟩, ∀ rule m,
        Tokenizer.matchAt? ⟨x, {}⟩ (.ofString "a") c = some (rule, m) → m.length = 0 →
        (Tokenizer.step ⟨x, {}⟩ (.ofString "a") c).2.stack ≠ c.stack := by
  obtain ⟨x, loaded, named, visited, rule, m, accepted, empty, leads⟩ := lookout_accepts
  refine ⟨x, ⟨0⟩, loaded, named, fun law => law _ visited rule m accepted empty ?_⟩
  rw [step_of_empty accepted empty, leads]
  rfl

end Tokenizer

end StackLexer
