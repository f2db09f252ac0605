import StackLexer.Proofs.Grammar.WellFormed

/-! What the checks of an entry establish.
An entry that passes has been compiled from its own fields, and the entries that pass are the
well-formed ones. Patterns are shared, so this rests on each pattern at hand being what its own
source compiles to. -/

namespace StackLexer

def Patterns.Right [RegexEngine] (patterns : Array Pattern) : Prop :=
  ∀ p ∈ patterns, Pattern.compile p.source p.caseInsensitive = .ok p

def Patterns.Extend (before after : Array Pattern) : Prop :=
  ∀ (slot : Nat) (p : Pattern), before[slot]? = some p → after[slot]? = some p

namespace Loading

theorem extend_push (patterns : Array Pattern) (p : Pattern) :
    Patterns.Extend patterns (patterns.push p) := by
  intro slot q found
  obtain ⟨bound, _⟩ := Array.getElem?_eq_some_iff.mp found
  rw [Array.getElem?_push_lt bound, ← found, Array.getElem?_eq_getElem bound]

theorem pattern_ok [RegexEngine] {patterns after : Array Pattern} {regex : String} {caseInsensitive : Bool}
    {slot : Nat} {p : Pattern} (right : Patterns.Right patterns)
    (h : pattern patterns regex caseInsensitive = .ok (slot, p, after)) :
    Pattern.compile regex caseInsensitive = .ok p ∧ after[slot]? = some p ∧
      Patterns.Extend patterns after ∧ Patterns.Right after := by
  unfold pattern at h
  simp only at h
  split at h
  · rename_i slot' found index find
    simp only [Except.ok.injEq, Prod.mk.injEq] at h
    obtain ⟨rfl, rfl, rfl⟩ := h
    have at_ : patterns[slot']? = some found := by
      rw [Array.find?_eq_bind_findIdx?_getElem?, index] at find
      simpa using find
    have same := Array.find?_some find
    simp only [Bool.and_eq_true, beq_iff_eq] at same
    refine ⟨?_, at_, fun _ _ h => h, right⟩
    rw [← same.1, ← same.2]
    exact right found (Array.mem_of_find?_eq_some find)
  · cases made : Pattern.compile regex caseInsensitive with
    | error fault => simp [made, bind, Except.bind] at h
    | ok new =>
      simp only [made, bind, Except.bind, Except.ok.injEq, Prod.mk.injEq] at h
      obtain ⟨rfl, rfl, rfl⟩ := h
      refine ⟨rfl, Array.getElem?_push_size, extend_push _ _, ?_⟩
      intro q member
      rcases Array.mem_push.mp member with old | rfl
      · exact right q old
      · obtain ⟨source, flag⟩ := Pattern.source_of_compile made
        rw [source, flag, made]

theorem pattern_isOk [RegexEngine] (patterns : Array Pattern) {regex : String} {caseInsensitive : Bool}
    {p : Pattern} (compiles : Pattern.compile regex caseInsensitive = .ok p) :
    ∃ slot q after, pattern patterns regex caseInsensitive = .ok (slot, q, after) := by
  unfold pattern
  simp only
  split
  · exact ⟨_, _, _, rfl⟩
  · exact ⟨_, _, _, by rw [compiles]; rfl⟩

variable {set : RuleSet}

/-- A transition is the one that an entry asks for. The lists that are pushed have the given
numbers. -/
inductive LeadsTo (opened : List (PushKey × StateId)) (entry : Located set) : Transition → Prop
  | stay (next : entry.rule.next = none) (push : entry.rule.push = none) : LeadsTo opened entry .stay
  | pop (next : entry.rule.next = some RuleSet.popName) (push : entry.rule.push = none) :
      LeadsTo opened entry .pop
  | goto {name : String} {i : Nat} (next : entry.rule.next = some name)
      (other : name ≠ RuleSet.popName) (push : entry.rule.push = none)
      (named : set.names.idxOf? name = some i) : LeadsTo opened entry (.goto ⟨i⟩)
  | push {name : String} {i : Nat} (next : entry.rule.next = none)
      (push : entry.rule.push = some (.state name)) (named : set.names.idxOf? name = some i) :
      LeadsTo opened entry (.push ⟨i⟩)
  | list {entries : List Rule} {id : StateId} (next : entry.rule.next = none)
      (push : entry.rule.push = some (.rules entries))
      (number : opened.lookup (set.keyAt (entry.place.push entry.index)) = some id) :
      LeadsTo opened entry (.push id)

structure Passed [RegexEngine] (patterns : Array Pattern) (entry : Located set) (c : Checked entry) :
    Prop where
  token : entry.rule.token = some c.tokens
  regex : entry.rule.regex = some c.pattern.source
  compiles : Pattern.compile c.pattern.source (entry.rule.caseInsensitive.getD false) = .ok c.pattern
  groups : ∀ kinds, c.tokens = .groups kinds → kinds ≠ [] ∧ kinds.length = c.pattern.groupCount
  slot : c.patterns[c.slot]? = some c.pattern
  extend : Patterns.Extend patterns c.patterns
  right : Patterns.Right c.patterns
  known : ∀ t, c.target = .known t → ∀ opened, LeadsTo opened entry t
  list : ∀ entries pushed, c.target = .list entries pushed → entry.rule.next = none

theorem pushed?_eq_some {rule : Rule} {entries : List Rule} :
    rule.pushed? = some entries ↔ rule.push = some (.rules entries) := by
  unfold Rule.pushed?
  constructor
  · intro h
    split at h
    · rename_i found push
      rw [push, Option.some.inj h]
    · simp at h
  · intro h
    rw [h]

theorem named_ok {entry : Located set} {name : String} {id : StateId}
    (h : named entry name = .ok id) : set.names.idxOf? name = some id.index := by
  unfold named at h
  split at h
  · rename_i i found
    rw [← Except.ok.inj h, found]
  · simp at h

theorem matching_ok {entry : Located set} {tokens : TokenSpec} {regex : String}
    (h : matching entry = .ok (tokens, regex)) :
    entry.rule.token = some tokens ∧ entry.rule.regex = some regex ∧
      (entry.rule.next = none ∨ entry.rule.push = none) := by
  unfold matching at h
  simp only at h
  split at h
  · rename_i token text tokenEq textEq
    split at h
    · simp at h
    · rename_i single
      simp only [Except.ok.injEq, Prod.mk.injEq] at h
      obtain ⟨rfl, rfl⟩ := h
      refine ⟨tokenEq, textEq, ?_⟩
      simpa [Classical.or_iff_not_imp_left, Option.isSome_iff_ne_none] using single
  all_goals simp at h

theorem checkTokens_ok_iff {entry : Located set} {tokens : TokenSpec} {p : Pattern} :
    checkTokens entry tokens p = .ok () ↔
      ∀ kinds, tokens = .groups kinds → kinds ≠ [] ∧ kinds.length = p.groupCount := by
  unfold checkTokens
  cases tokens with
  | single kind => simp
  | groups kinds =>
    simp only [TokenSpec.groups.injEq, forall_eq']
    by_cases empty : kinds = []
    · simp [empty]
    · by_cases length : kinds.length = p.groupCount <;> simp [empty, length]

theorem target_known {entry : Located set} {t : Transition}
    (single : entry.rule.next = none ∨ entry.rule.push = none)
    (h : target entry = .ok (.known t)) (opened : List (PushKey × StateId)) :
    LeadsTo opened entry t := by
  unfold target at h
  split at h
  · simp at h
  · rename_i noList
    split at h
    · rename_i name next
      have noPush : entry.rule.push = none := by simpa [next] using single
      split at h
      · rename_i isPop
        obtain rfl : Transition.pop = t := by simpa using h
        exact .pop (isPop ▸ next) noPush
      · rename_i other
        obtain ⟨id, number, same⟩ := map_ok h
        obtain rfl : Transition.goto id = t := by simpa using same
        exact .goto next other noPush (named_ok number)
    · rename_i name next push
      obtain ⟨id, number, same⟩ := map_ok h
      obtain rfl : Transition.push id = t := by simpa using same
      exact .push next push (named_ok number)
    · rename_i next notState
      obtain rfl : Transition.stay = t := by simpa using h
      refine .stay next ?_
      cases push : entry.rule.push with
      | none => rfl
      | some leads =>
        cases leads with
        | rules entries => simp [pushed?_eq_some.mpr push] at noList
        | state name => exact absurd push (notState name)

theorem check_passed [RegexEngine] {patterns : Array Pattern} {entry : Located set} {c : Checked entry}
    (right : Patterns.Right patterns) (h : check patterns entry = .ok c) :
    Passed patterns entry c := by
  unfold check at h
  cases fields : matching entry with
  | error e => simp [fields, bind, Except.bind] at h
  | ok found =>
    obtain ⟨tokens, regex⟩ := found
    obtain ⟨token, text, single⟩ := matching_ok fields
    simp only [fields, bind, Except.bind] at h
    split at h
    · simp at h
    · rename_i slot p after compiled
      obtain ⟨compiles, at_, extend, right⟩ := pattern_ok right compiled
      obtain ⟨source, _⟩ := Pattern.source_of_compile compiles
      cases tokensOk : checkTokens entry tokens p with
      | error e => simp [tokensOk] at h
      | ok unit_ =>
        cases leads : target entry with
        | error e => simp [tokensOk, leads] at h
        | ok t =>
          simp only [tokensOk, leads, Except.ok.injEq] at h
          obtain rfl := h
          exact {
            token
            regex := by rw [text, source]
            compiles := by rw [source, compiles]
            groups := checkTokens_ok_iff.mp tokensOk
            slot := at_
            extend
            right
            known := by
              rintro t rfl opened
              exact target_known single leads opened
            list := by
              rintro entries pushed rfl
              have push := pushed?_eq_some.mp pushed
              simpa [push] using single }

theorem named_isOk (entry : Located set) {name : String} (known : name ∈ set.names) :
    ∃ id, named entry name = .ok id := by
  obtain ⟨i, found⟩ := Option.isSome_iff_exists.mp (List.isSome_idxOf?.mpr known)
  exact ⟨⟨i⟩, by rw [named, found]⟩

theorem target_isOk {entry : Located set}
    (next : ∀ name, entry.rule.next = some name → name = RuleSet.popName ∨ name ∈ set.names)
    (push : ∀ name, entry.rule.push = some (.state name) → name ∈ set.names) :
    ∃ t, target entry = .ok t := by
  unfold target
  split
  · exact ⟨_, rfl⟩
  · split
    · rename_i name asked
      split
      · exact ⟨_, rfl⟩
      · rename_i other
        obtain ⟨id, number⟩ := named_isOk entry ((next name asked).resolve_left other)
        exact ⟨_, by rw [number]; rfl⟩
    · rename_i name _ asked
      obtain ⟨id, number⟩ := named_isOk entry (push name asked)
      exact ⟨_, by rw [number]; rfl⟩
    · exact ⟨_, rfl⟩

theorem check_isOk [RegexEngine] {patterns : Array Pattern} {entry : Located set}
    (right : Patterns.Right patterns) (well : entry.rule.WellFormed set)
    (plain : entry.rule.includes = none) (noDefault : entry.rule.defaultToken = none) :
    ∃ c, check patterns entry = .ok c := by
  generalize rule_eq : entry.rule = rule at well plain noDefault
  cases well with
  | including => simp at plain
  | default => simp at noDefault
  | @matching _ tokens regex p _ _ token text single compiles groups next push =>
    subst rule_eq
    have fields : matching entry = .ok (tokens, regex) := by
      unfold matching
      simp only [token, text]
      rw [if_neg]
      simpa [Classical.or_iff_not_imp_left, Option.isSome_iff_ne_none] using single
    obtain ⟨slot, q, after, found⟩ := pattern_isOk patterns compiles
    obtain ⟨compiles', _⟩ := pattern_ok right found
    obtain rfl := Except.ok.inj (compiles.symm.trans compiles')
    obtain ⟨t, leads⟩ := target_isOk next push
    refine ⟨⟨slot, p, tokens, t, after⟩, ?_⟩
    unfold check
    simp only [fields, bind, Except.bind, found, checkTokens_ok_iff.mpr groups, leads]

end Loading

end StackLexer
