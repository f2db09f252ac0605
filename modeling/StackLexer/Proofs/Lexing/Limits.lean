import StackLexer.Proofs.Lexing.Above
import StackLexer.Proofs.Lexing.Duration

/-! Limits that a scan does not reach.
The depth limit shows only in a push that is refused, and the cap on empty matches only at a position where
so many have been taken that no other is looked for. A scan on which neither happens goes the same way when
more is allowed. -/

namespace StackLexer

namespace Stack

/-- A deeper limit makes a difference for a push that is refused and for nothing else. -/
theorem apply_raised {s : Stack} {limit : Nat} {t : Transition}
    (kept : (Counts.ofEffect (s.apply limit t).2).overflows = 0) (more : Nat) :
    s.apply (limit + more) t = s.apply limit t := by
  cases t with
  | stay | goto | pop => rfl
  | push id =>
    simp only [apply] at kept ⊢
    split at kept
    · rename_i room
      have room' : s.depth < limit + more := by omega
      rw [if_pos room, if_pos room']
    · simp [Counts.ofEffect] at kept

end Stack

namespace Step

theorem event?_of_kept {step : Step} (kept : step.counts.overflows = 0) (line : Line)
    (limit other : Nat) : step.event? line limit = step.event? line other := by
  cases step with
  | unmatched position kind stalled => cases stalled <;> rfl
  | matched rule m gap effect =>
    cases effect with
    | refused depth => simp [counts, Counts.ofEffect] at kept
    | _ => rfl

def emptyAt? : Step → Option Nat
  | matched _ m _ _ => if m.length = 0 then some m.start else none
  | unmatched .. => none

def Lingers (n : Nat) (steps : List Step) : Prop :=
  ∃ position, List.replicate n (some position) <:+: steps.map emptyAt?

end Step

namespace Tokenizer

variable {t : Tokenizer} {line : Line}

theorem step_raised {c : Cursor} (kept : (t.step line c).1.counts.overflows = 0) (more : Nat) :
    (t.raised more).step line c = t.step line c := by
  have same : (t.raised more).matchAt? line c = t.matchAt? line c := rfl
  cases found : t.matchAt? line c with
  | none => rw [step_of_none found, step_of_none (same.trans found)]; rfl
  | some match_ =>
    obtain ⟨rule, m⟩ := match_
    rw [step_of_match found] at kept
    have applied := Stack.apply_raised kept more
    rw [step_of_match found, step_of_match (same.trans found)]
    simp only [raised, applied]

theorem overflows_step (stack : Stack) (text : String)
    (roomy : (t.line stack text).counts.overflows = 0) :
    ∀ c ∈ t.visits (.ofString text) ⟨0, stack, 0⟩,
      (t.step (.ofString text) c).1.counts.overflows = 0 := by
  rw [counts_line, countsOf_eq] at roomy
  have none_ := List.countP_eq_zero.mp roomy
  intro c member
  rw [counts_step]
  exact if_neg (none_ c member)

def patient (t : Tokenizer) (more : Nat) : Tokenizer :=
  { t with settings := { t.settings with maxZeroWidthSteps := t.settings.maxZeroWidthSteps + more } }

theorem step_patient {c : Cursor} (kept : c.spent < t.settings.maxZeroWidthSteps) (more : Nat) :
    (t.patient more).step line c = t.step line c := by
  have kept' : c.spent < (t.patient more).settings.maxZeroWidthSteps := Nat.lt_add_right more kept
  have same : (t.patient more).matchAt? line c = t.matchAt? line c := by
    simp only [matchAt?, kept, kept', decide_true]
    rfl
  simp only [step, same]
  rfl

theorem emptyAt?_step {c : Cursor} (before : c.position < line.size) :
    ((t.step line c).1.emptyAt? = some c.position ∧ (t.step line c).2.position = c.position ∧
        (t.step line c).2.spent = c.spent + 1) ∨
      (t.step line c).2.spent = 0 := by
  rcases step_moves (t := t) before with ⟨rule, m, found, empty, _, same, spent⟩ | ⟨_, _, spent⟩
  · refine .inl ⟨?_, same, spent⟩
    obtain ⟨_, matched, _⟩ := Lexicon.State.firstMatch?_eq_some found
    have start := (Pattern.bounds _ matched).1
    rw [step_of_match found, Step.emptyAt?, if_pos empty, start]
  · exact .inr spent

theorem spent_lt (t : Tokenizer) (line : Line) (c : Cursor) (before : List (Option Nat))
    (counted : List.replicate c.spent (some c.position) <:+ before)
    (brisk : ∀ position, ¬ List.replicate t.settings.maxZeroWidthSteps (some position) <:+:
      before ++ (t.visits line c).map (fun d => (t.step line d).1.emptyAt?)) :
    ∀ d ∈ t.visits line c, d.spent < t.settings.maxZeroWidthSteps := by
  -- Each step is put behind those before it, whose last ones the cursor counts.
  induction c using t.visits_induction line generalizing before with
  | done c beyond => simp [visits_end beyond]
  | step c inside ih =>
    have here : c.spent < t.settings.maxZeroWidthSteps := by
      by_contra reached
      have enough : t.settings.maxZeroWidthSteps ≤ c.spent := Nat.not_lt.mp reached
      apply brisk c.position
      have within : List.replicate t.settings.maxZeroWidthSteps (some c.position) <:+:
          List.replicate c.spent (some c.position) := by
        rw [List.infix_replicate_iff]
        simpa using enough
      exact (within.trans counted.isInfix).trans (List.prefix_append _ _).isInfix
    rw [visits_step inside] at brisk ⊢
    refine List.forall_mem_cons.mpr ⟨here, ?_⟩
    apply ih (before ++ [(t.step line c).1.emptyAt?])
    · rcases emptyAt?_step (t := t) inside with ⟨taken, same, spent⟩ | spent
      · obtain ⟨earlier, rfl⟩ := counted
        rw [taken, same, spent, List.replicate_succ', List.append_assoc]
        exact List.suffix_append _ _
      · rw [spent]
        exact List.nil_suffix
    · simpa using brisk

/-- A line on which no push is refused yields the same under any deeper limit. One on which there are never
as many empty matches in a row at a position as are allowed yields the same if more are allowed. -/
theorem limits_unseen (t : Tokenizer) (stack : Stack) (text : String) :
    ((t.line stack text).counts.overflows = 0 →
        ∀ more, (t.raised more).line stack text = t.line stack text) ∧
      (¬ Step.Lingers t.settings.maxZeroWidthSteps (t.scan stack (.ofString text)).steps →
        ∀ more, (t.patient more).line stack text = t.line stack text) := by
  constructor
  · intro roomy more
    have kept := overflows_step stack text roomy
    have scans : (t.raised more).scan stack (.ofString text) = t.scan stack (.ofString text) :=
      scan_of_steps (fun c visited => step_raised (kept c visited) more)
    have events : (t.scan stack (.ofString text)).events (t.settings.maxStackDepth + more) =
        (t.scan stack (.ofString text)).events t.settings.maxStackDepth := by
      apply List.filterMap_congr
      rw [steps_scan]
      intro step member
      obtain ⟨c, visited, rfl⟩ := List.mem_map.mp member
      exact Step.event?_of_kept (kept c visited) _ _ _
    rw [Tokenizer.line, scans]
    exact congrArg (LineTokens.mk _ _ _) events
  · intro brisk more
    have kept := t.spent_lt (.ofString text) ⟨0, stack, 0⟩ [] (List.suffix_refl []) (by
      intro position inside
      apply brisk
      rw [steps_scan, Step.Lingers, List.map_map]
      exact ⟨position, inside⟩)
    have scans : (t.patient more).scan stack (.ofString text) = t.scan stack (.ofString text) :=
      scan_of_steps (fun c visited => step_patient (kept c visited) more)
    rw [Tokenizer.line, scans]
    rfl

def peeking : RuleSet :=
  (RuleSet.empty.withState "start"
    [(Rule.single "open" "\\(").withPush [Rule.including "start"],
      (Rule.single "peek" "(?=a)").withNext "letter"]).withState "letter"
    [(Rule.single "letter" "a").withNext "start"]

/-- The stack becomes as deep as it may be, and one empty match less than allowed is taken at a letter. -/
theorem limits_unseen_peeking :
    ∃ x, peeking.load.2 = .ok x ∧
      let t : Tokenizer := ⟨x, { maxStackDepth := 3, maxZeroWidthSteps := 2 }⟩
      let stack := Stack.ofRoot ⟨1⟩
      (t.line stack "((aa").counts.overflows = 0 ∧
        ¬ Step.Lingers 2 (t.scan stack (.ofString "((aa")).steps ∧
        (∀ more, (t.raised more).line stack "((aa" = t.line stack "((aa") ∧
        ∀ more, (t.patient more).line stack "((aa" = t.line stack "((aa" := by
  have scanned : peeking.load.2.toOption.map (fun x =>
      let t : Tokenizer := ⟨x, { maxStackDepth := 3, maxZeroWidthSteps := 2 }⟩
      ((t.line (.ofRoot ⟨1⟩) "((aa").counts.overflows,
        (t.scan (.ofRoot ⟨1⟩) (.ofString "((aa")).steps.map Step.emptyAt?)) =
      some (0, [none, none, some 2, none, some 3, none]) := by cbv
  obtain ⟨x, found, same⟩ := Option.map_eq_some_iff.mp scanned
  obtain ⟨roomy, steps⟩ := Prod.mk.inj same
  have brisk : ¬ Step.Lingers 2 (Tokenizer.scan ⟨x, { maxStackDepth := 3, maxZeroWidthSteps := 2 }⟩
      (.ofRoot ⟨1⟩) (.ofString "((aa")).steps := by
    rintro ⟨position, inside⟩
    rw [steps] at inside
    have apart : [none, none, some 2, none, some 3, none].IsChain
        (fun (a b : Option Nat) => ¬ (a.isSome ∧ b.isSome)) := by decide
    have both := apart.infix inside
    simp [List.replicate] at both
  obtain ⟨raised, patient⟩ := limits_unseen ⟨x, { maxStackDepth := 3, maxZeroWidthSteps := 2 }⟩
    (.ofRoot ⟨1⟩) "((aa"
  exact ⟨x, RuleSet.load_of_toOption found, roomy, brisk, raised roomy, patient brisk⟩

end Tokenizer

end StackLexer
