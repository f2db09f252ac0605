import Mathlib
import StackLexer.Proofs.Grammar.Acceptance
import StackLexer.Regex.Engine

/-! Why a rule set is refused.
An error names the list in which the entry at fault is written and the index that the entry has there,
also when the entry was come to through the includes of other lists. What the error says of the entry is
so, and a cycle of includes that is reported is one. -/

namespace StackLexer

namespace RuleSet

inductive Labelled (set : RuleSet) : String → List Rule → Prop
  | state {name : String} {rules : List Rule} (found : set.get? name = some rules) :
      Labelled set name rules
  | pushed {label : String} {around entries : List Rule} {index : Nat} {rule : Rule}
      (outer : Labelled set label around) (inside : around[index]? = some rule)
      (pushes : rule.push = some (.rules entries)) :
      Labelled set (label ++ "/push@" ++ toString index) entries

def WrittenIn (set : RuleSet) (label : String) (index : Nat) (rule : Rule) : Prop :=
  ∃ rules, set.Labelled label rules ∧ rules[index]? = some rule

/-- States each of which includes the next one, the first again at the end and none of the others twice. -/
structure IncludeCycle (set : RuleSet) (cycle : List String) : Prop where
  long : 2 ≤ cycle.length
  closed : cycle.head? = cycle.getLast?
  distinct : cycle.dropLast.Nodup
  named : ∀ name ∈ cycle.dropLast, name ∈ set.names
  edges : cycle.IsChain set.Includes

end RuleSet

namespace Rule

def Plain (rule : Rule) : Prop := rule.includes = none ∧ rule.defaultToken = none

def Contradicts (rule : Rule) : Malformed → Prop
  | .includeWithOthers => rule.includes ≠ none ∧ rule.includesMore = true
  | .defaultWithMatching =>
    rule.includes = none ∧ rule.defaultToken ≠ none ∧ rule.defaultsMore = true
  | .regexWithoutToken => rule.Plain ∧ rule.regex ≠ none ∧ rule.token = none
  | .tokenWithoutRegex => rule.Plain ∧ rule.token ≠ none ∧ rule.regex = none
  | .nothingToDo => rule.Plain ∧ rule.token = none ∧ rule.regex = none
  | .nextAndPush => rule.Plain ∧ rule.next ≠ none ∧ rule.push ≠ none
  | .emptyTokenList => rule.Plain ∧ rule.token = some (.groups [])

def LeadsTo (rule : Rule) (target : String) : Prop :=
  rule.next = some target ∧ target ≠ RuleSet.popName ∨ rule.push = some (.state target)

end Rule

/-- What an error says of a rule set is so. -/
def RuleSet.Justifies [RegexEngine] (set : RuleSet) : LoadError → Prop
  | .parse _ => False
  | .malformed label index reason => ∃ rule, set.WrittenIn label index rule ∧ rule.Contradicts reason
  | .groupCount label index regex tokens groups =>
    ∃ rule kinds pattern, set.WrittenIn label index rule ∧ rule.Plain ∧
      rule.token = some (.groups kinds) ∧ rule.regex = some regex ∧
      Pattern.compile regex (rule.caseInsensitive.getD false) = .ok pattern ∧
      tokens = kinds.length ∧ groups = pattern.groupCount ∧ tokens ≠ groups
  | .invalidRegex label index regex fault =>
    ∃ rule, set.WrittenIn label index rule ∧ rule.Plain ∧ rule.regex = some regex ∧
      Pattern.compile regex (rule.caseInsensitive.getD false) = .error fault
  | .unknownInclude label target =>
    ∃ index rule, set.WrittenIn label index rule ∧ rule.includes = some target ∧
      target ∉ set.names
  | .circularInclude cycle => set.IncludeCycle cycle
  | .unknownState label index target =>
    ∃ rule, set.WrittenIn label index rule ∧ rule.Plain ∧ rule.LeadsTo target ∧
      target ∉ set.names
  | .missingStart name => name = RuleSet.startName ∧ RuleSet.startName ∉ set.names

variable {set : RuleSet}

theorem Place.label_push (place : Place) (index : Nat) :
    (place.push index).label = place.label ++ "/push@" ++ toString index := by
  obtain ⟨state, path⟩ := place
  simp only [label, push]
  induction path generalizing state with
  | nil => rfl
  | cons i path ih => exact ih (state ++ "/push@" ++ toString i)

namespace RuleSet

theorem labelled_of_listAt? (place : Place) :
    ∀ rules, set.listAt? place = some rules → set.Labelled place.label rules := by
  induction place using Place.induction with
  | state name =>
    intro rules found
    rw [listAt?_state] at found
    exact .state found
  | push place i ih =>
    intro entries found
    obtain ⟨around, rule, at_, inside, pushed⟩ := listAt?_push_inv found
    rw [Place.label_push]
    exact .pushed (ih around at_) inside (Loading.pushed?_eq_some.mp pushed)

theorem writtenIn_label {place : Place} {index : Nat} {rule : Rule}
    (written : (set.listAt? place).bind (·[index]?) = some rule) :
    set.WrittenIn place.label index rule := by
  obtain ⟨rules, found, inside⟩ := Option.bind_eq_some_iff.mp written
  exact ⟨rules, labelled_of_listAt? place rules found, inside⟩

/-! ### Includes -/

theorem Includes.mem_names {state target : String} (edge : set.Includes state target) :
    state ∈ set.names := by
  obtain ⟨rules, found, _⟩ := edge
  exact RuleSet.mem_names found

theorem includeCycle_of_chain {path : List String} {name : String} (distinct : path.Nodup)
    (chain : (path ++ [name]).IsChain set.Includes) (again : name ∈ path) :
    set.IncludeCycle (path.dropWhile (· != name) ++ [name]) := by
  obtain ⟨before, after, rfl, first⟩ := List.eq_append_cons_of_mem again
  have cut : (before ++ name :: after).dropWhile (· != name) = name :: after := by
    rw [List.dropWhile_append_of_pos]
    · simp
    · intro other member
      have different : other ≠ name := fun same => first (same ▸ member)
      simpa using different
  have edges : (name :: after ++ [name]).IsChain set.Includes := by
    rw [List.append_assoc] at chain
    exact chain.right_of_append
  rw [cut]
  exact {
    long := by simp
    closed := by rw [List.getLast?_concat, List.cons_append, List.head?_cons]
    distinct := by
      rw [List.dropLast_concat]
      exact (List.nodup_append.mp distinct).2.1
    named := by
      rw [List.dropLast_concat]
      intro other member
      -- Every state but the last one includes the state after it.
      obtain ⟨i, bound, rfl⟩ := List.mem_iff_getElem.mp member
      have edge := edges.getElem i (by simpa using bound)
      rw [List.getElem_append_left bound] at edge
      exact edge.mem_names
    edges }

end RuleSet

namespace Marks

variable [RegexEngine]

-- The states on the path are being expanded; each of them includes the next one.
mutual

theorem readState_error {m : Marks set} {path : List String} {includer : Place} {name : String}
    {fault : LoadError} (sound : m.Sound path) (chain : (path ++ [name]).IsChain set.Includes)
    (asked : name ∈ set.names ∨
      ∃ index rule, set.WrittenIn includer.label index rule ∧ rule.includes = some name)
    (h : (m.readState includer name).2 = .error fault) : set.Justifies fault := by
  cases found : set.get? name with
  | none =>
    rw [readState_absent found] at h
    obtain rfl := Except.error.inj h
    have unknown : name ∉ set.names := by simp [RuleSet.mem_names_iff, found]
    obtain ⟨index, rule, written, names⟩ := asked.resolve_left unknown
    exact ⟨index, rule, written, names, unknown⟩
  | some rules =>
    cases mark : m.mark name with
    | done e => simp [readState_done found mark] at h
    | underway =>
      have again := (sound.underway name).mp mark
      rw [readState_underway found mark, sound.along, drop_idxOf? again] at h
      obtain rfl := Except.error.inj h
      exact RuleSet.includeCycle_of_chain sound.distinct chain again
    | untouched =>
      have fewer := untouched_begin found mark
      rw [readState_untouched found mark] at h
      refine readFrom_error (sound.begin mark) ?_ (Loading.map_error h)
      intro rule member target names
      have edge : set.Includes name target := ⟨rules, found, rule, member, names⟩
      refine List.isChain_append.mpr ⟨chain, .singleton target, ?_⟩
      simpa using edge
termination_by (m.untouched.length, 0)

theorem readFrom_error {m : Marks set} {path : List String} {place : Place} {index : Nat}
    {rest : List Rule} {written : (set.listAt? place).map (List.drop index) = some rest}
    {fault : LoadError} (sound : m.Sound path)
    (chain : ∀ rule ∈ rest, ∀ target, rule.includes = some target →
      (path ++ [target]).IsChain set.Includes)
    (h : (m.readFrom place index rest written).2 = .error fault) : set.Justifies fault := by
  cases rest with
  | nil => simp [readFrom] at h
  | cons rule rest =>
    have here := RuleSet.writtenIn_label (RuleSet.written_head written)
    have others : ∀ r ∈ rest, ∀ target, r.includes = some target →
        (path ++ [target]).IsChain set.Includes :=
      fun r member => chain r (List.mem_cons_of_mem _ member)
    cases names : rule.includes with
    | some target =>
      cases more : rule.includesMore with
      | true =>
        rw [readFrom_includesMore names more] at h
        obtain rfl := Except.error.inj h
        exact ⟨rule, here, by simp [names], more⟩
      | false =>
        rw [outcome_including names more] at h
        rcases Loading.bind_error h with failed | ⟨first, inner, h⟩
        · have chain := chain rule List.mem_cons_self target names
          exact readState_error sound chain (.inr ⟨index, rule, here, names⟩) failed
        · have between := (readState_expands sound inner).2
          exact readFrom_error between others (Loading.map_error h)
    | none =>
      cases gives : rule.defaultToken with
      | some kind =>
        cases more : rule.defaultsMore with
        | true =>
          rw [readFrom_defaultsMore names gives more] at h
          obtain rfl := Except.error.inj h
          exact ⟨rule, here, names, by simp [gives], more⟩
        | false =>
          rw [readFrom_default names gives more] at h
          exact readFrom_error sound others (Loading.map_error h)
      | none =>
        rw [readFrom_matching names gives] at h
        exact readFrom_error sound others (Loading.map_error h)
termination_by (m.untouched.length, rest.length + 1)
decreasing_by
  · decreasing_tactic
  · decreasing_tactic
  · decreasing_tactic
  · exact lex_of_le first.within (by decreasing_tactic)

end

end Marks

namespace Loading

variable [RegexEngine] {entry : Located set} {fault : LoadError}

/-! ### Checks -/

theorem matching_error (plain : entry.rule.Plain) (h : matching entry = .error fault) :
    set.Justifies fault := by
  have here := RuleSet.writtenIn_label entry.written
  unfold matching at h
  simp only at h
  split at h
  · split at h
    · rename_i both
      obtain rfl := Except.error.inj h
      have both : entry.rule.next ≠ none ∧ entry.rule.push ≠ none := by
        simpa [Option.isSome_iff_ne_none] using both
      exact ⟨entry.rule, here, plain, both⟩
    · simp at h
  · rename_i token regex
    obtain rfl := Except.error.inj h
    exact ⟨entry.rule, here, plain, by simp [regex], token⟩
  · rename_i token regex
    obtain rfl := Except.error.inj h
    exact ⟨entry.rule, here, plain, by simp [token], regex⟩
  · rename_i token regex
    obtain rfl := Except.error.inj h
    exact ⟨entry.rule, here, plain, token, regex⟩

theorem pattern_error {patterns : Array Pattern} {regex : String} {caseInsensitive : Bool}
    {fault : String} (h : pattern patterns regex caseInsensitive = .error fault) :
    Pattern.compile regex caseInsensitive = .error fault := by
  unfold pattern at h
  simp only at h
  split at h
  · simp at h
  · cases made : Pattern.compile regex caseInsensitive with
    | error other =>
      simp only [made, bind, Except.bind] at h
      rw [Except.error.inj h]
    | ok new => simp [made, bind, Except.bind] at h

theorem checkTokens_error {tokens : TokenSpec} {p : Pattern} (plain : entry.rule.Plain)
    (token : entry.rule.token = some tokens) (regex : entry.rule.regex = some p.source)
    (compiles : Pattern.compile p.source (entry.rule.caseInsensitive.getD false) = .ok p)
    (h : checkTokens entry tokens p = .error fault) : set.Justifies fault := by
  have here := RuleSet.writtenIn_label entry.written
  unfold checkTokens at h
  split at h
  · simp at h
  · rename_i kinds
    split at h
    · rename_i empty
      obtain rfl := Except.error.inj h
      exact ⟨entry.rule, here, plain, by rw [token, List.isEmpty_iff.mp empty]⟩
    · split at h
      · simp at h
      · rename_i different
        obtain rfl := Except.error.inj h
        exact ⟨entry.rule, kinds, p, here, plain, token, regex, compiles, rfl, rfl, different⟩

theorem named_error {name : String} (plain : entry.rule.Plain) (leads : entry.rule.LeadsTo name)
    (h : named entry name = .error fault) : set.Justifies fault := by
  unfold named at h
  split at h
  · simp at h
  · rename_i absent
    obtain rfl := Except.error.inj h
    have unknown : name ∉ set.names := List.idxOf?_eq_none_iff.mp absent
    exact ⟨entry.rule, RuleSet.writtenIn_label entry.written, plain, leads, unknown⟩

theorem target_error (plain : entry.rule.Plain) (h : target entry = .error fault) :
    set.Justifies fault := by
  unfold target at h
  split at h
  · simp at h
  · split at h
    · rename_i name _ next
      split at h
      · simp at h
      · rename_i other
        exact named_error plain (.inl ⟨next, other⟩) (map_error h)
    · rename_i name _ push
      exact named_error plain (.inr push) (map_error h)
    · simp at h

theorem check_error {patterns : Array Pattern} (right : Patterns.Right patterns)
    (plain : entry.rule.Plain) (h : check patterns entry = .error fault) :
    set.Justifies fault := by
  unfold check at h
  cases fields : matching entry with
  | error e =>
    simp only [fields, bind, Except.bind] at h
    exact matching_error plain (Except.error.inj h ▸ fields)
  | ok found =>
    obtain ⟨tokens, regex⟩ := found
    obtain ⟨token, text, _⟩ := matching_ok fields
    simp only [fields, bind, Except.bind] at h
    split at h
    · rename_i bad failed
      obtain rfl := Except.error.inj h
      have here := RuleSet.writtenIn_label entry.written
      exact ⟨entry.rule, here, plain, text, pattern_error failed⟩
    · rename_i slot p after compiled
      obtain ⟨compiles, _⟩ := pattern_ok right compiled
      obtain ⟨rfl, _⟩ := Pattern.source_of_compile compiles
      cases fits : checkTokens entry tokens p with
      | error e =>
        simp only [fits] at h
        exact checkTokens_error plain token text compiles (Except.error.inj h ▸ fits)
      | ok done =>
        cases leads : target entry with
        | error e =>
          simp only [fits, leads] at h
          exact target_error plain (Except.error.inj h ▸ leads)
        | ok t => simp [fits, leads] at h

/-! ### Loading -/

variable {begun : List (PushKey × StateId)} {a : Assembly set}

theorem compiles_error {agenda : List (StateId × Located set)} (inv : Invariant begun a agenda)
    (h : Compiles a agenda (.error fault)) : set.Justifies fault := by
  generalize outcome : Except.error fault = result at h
  induction h with
  | done => simp at outcome
  | @refused a id entry _ _ failed =>
    obtain rfl := Except.error.inj outcome
    have plain := (inv.due id entry List.mem_cons_self).2
    exact check_error inv.right plain failed
  | known checked leads _ ih => exact ih (inv.known checked leads) outcome
  | met checked leads number _ ih => exact ih (inv.met checked leads number) outcome
  | unread checked leads new failed =>
    obtain rfl := Except.error.inj outcome
    -- No named state is underway when a pushed list is read.
    exact Marks.readFrom_error inv.sound (fun _ _ target _ => .singleton target) failed
  | opens checked leads new read _ ih => exact ih (inv.opens checked leads new read) outcome

theorem builds_error {done names : List String} {index : Nat} (half : Halfway a done names)
    (number : index = done.length) (h : Builds a index names (.error fault)) :
    set.Justifies fault := by
  generalize outcome : Except.error fault = result at h
  induction h generalizing done with
  | done => simp at outcome
  | @unread a index name _ _ failed =>
    obtain rfl := Except.error.inj outcome
    have named : name ∈ set.names := by simp [half.all]
    exact Marks.readState_error half.invariant.sound (.singleton name) (.inl named) failed
  | refused read failed =>
    obtain rfl := Except.error.inj outcome
    subst number
    exact compiles_error (half.begin read) failed
  | next read compiled _ ih =>
    subst number
    exact ih (half.next read compiled) (by simp) outcome

end Loading

namespace RuleSet

section

variable [RegexEngine]

theorem load_error_iff {fault : LoadError} :
    set.load.2 = .error fault ↔
      startName ∉ set.names ∧ fault = .missingStart startName ∨
        startName ∈ set.names ∧ set.assembly = .error fault := by
  unfold load loading assembly
  cases first : set.names.idxOf? startName with
  | none =>
    have absent : startName ∉ set.names := List.idxOf?_eq_none_iff.mp first
    simp [absent, eq_comm]
  | some start =>
    have present : startName ∈ set.names := List.isSome_idxOf?.mp (first ▸ rfl)
    obtain ⟨deeds, other | a⟩ := Loading.compileStates set.blank 0 set.names <;> simp [present]

theorem assembly_error {fault : LoadError} (failed : set.assembly = .error fault) :
    set.Justifies fault :=
  Loading.builds_error set.halfway_blank rfl (failed ▸ set.assembly_builds)

theorem load_error {fault : LoadError} (failed : set.load.2 = .error fault) :
    set.Justifies fault := by
  rcases load_error_iff.mp failed with ⟨absent, rfl⟩ | ⟨_, failed⟩
  · exact ⟨rfl, absent⟩
  · exact assembly_error failed

/-- An error says what is so of an entry in the list where that is written, and of the start state only
that there is none, which it does just then. -/
theorem refused_where_written (set : RuleSet) :
    (∀ fault, set.load.2 = .error fault → set.Justifies fault) ∧
      ∀ name, set.load.2 = .error (.missingStart name) ↔
        name = startName ∧ set.contains startName = false := by
  refine ⟨fun fault failed => load_error failed, fun name => ?_⟩
  have absent_iff : set.contains startName = false ↔ startName ∉ set.names := by
    rw [← contains_iff, Bool.not_eq_true]
  rw [absent_iff]
  constructor
  · intro failed
    exact load_error failed
  · rintro ⟨rfl, absent⟩
    exact load_error_iff.mpr (.inl ⟨absent, rfl⟩)

end

def tangled : RuleSet :=
  RuleSet.empty
    |>.withState "a" [(Rule.single "open" "\\(").withPush [Rule.including "z"]]
    |>.withState "start" []
    |>.withState "z" [Rule.single "close" "\\)",
      (Rule.single "mark" "#").withPush [Rule.single "x" "x", Rule.groups ["y"] "y"]]

theorem tangled_refused_where_written :
    tangled.load.2 = .error (.groupCount "z/push@1" 1 "y" 1 0) ∧
      tangled.Justifies (.groupCount "z/push@1" 1 "y" 1 0) := by
  have failed : tangled.load.2 = .error (.groupCount "z/push@1" 1 "y" 1 0) := by cbv
  exact ⟨failed, (refused_where_written tangled).1 _ failed⟩

end RuleSet

end StackLexer
