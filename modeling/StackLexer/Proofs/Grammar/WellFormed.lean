import StackLexer.Grammar.Loading
import StackLexer.Proofs.Grammar.Includes

/-! Well-formed rule sets.
Well-formedness is said of the entries of all lists, wherever they are written, and of the includes
between named states; nothing in it follows the loader. The includes of a well-formed rule set can be
expanded from every list. -/

namespace StackLexer

/-- An entry that includes a state or gives a default token says nothing else, but for a comment.
Any other entry has a token and a regex, which compiles, with as many tokens as it has groups if the
tokens are a list, and leads at most to one place, which exists. -/
inductive Rule.WellFormed [RegexEngine] (set : RuleSet) : Rule → Prop
  | including (target : String) (comment : Option String) (named : target ∈ set.names) :
      WellFormed set { includes := some target, comment }
  | default (kind : String) (comment : Option String) :
      WellFormed set { defaultToken := some kind, comment }
  | matching {rule : Rule} {tokens : TokenSpec} {regex : String} {pattern : Pattern}
      (plain : rule.includes = none) (noDefault : rule.defaultToken = none)
      (token : rule.token = some tokens) (text : rule.regex = some regex)
      (single : rule.next = none ∨ rule.push = none)
      (compiles : Pattern.compile regex (rule.caseInsensitive.getD false) = .ok pattern)
      (groups : ∀ kinds, tokens = .groups kinds → kinds ≠ [] ∧ kinds.length = pattern.groupCount)
      (next : ∀ name, rule.next = some name → name = RuleSet.popName ∨ name ∈ set.names)
      (push : ∀ name, rule.push = some (.state name) → name ∈ set.names) : WellFormed set rule

namespace RuleSet

structure WellFormed [RegexEngine] (set : RuleSet) : Prop where
  start : set.contains startName = true
  /-- The lists are those of the named states and all that are pushed, however deep. -/
  entries : ∀ place rules, set.listAt? place = some rules → ∀ rule ∈ rules, rule.WellFormed set
  acyclic : ∀ name, ¬ Relation.TransGen set.Includes name name

end RuleSet

namespace Rule

variable {set : RuleSet} {rule : Rule}

theorem eq_including {target : String} (names : rule.includes = some target)
    (alone : rule.includesMore = false) :
    rule = { includes := some target, comment := rule.comment } := by
  obtain ⟨token, regex, next, push, defaultToken, includes, caseInsensitive, comment⟩ := rule
  simp_all [includesMore]

theorem eq_default {kind : String} (plain : rule.includes = none)
    (gives : rule.defaultToken = some kind) (alone : rule.defaultsMore = false) :
    rule = { defaultToken := some kind, comment := rule.comment } := by
  obtain ⟨token, regex, next, push, defaultToken, includes, caseInsensitive, comment⟩ := rule
  simp_all [defaultsMore]

theorem WellFormed.of_including [RegexEngine] {target : String} (well : rule.WellFormed set)
    (names : rule.includes = some target) : rule.includesMore = false ∧ target ∈ set.names := by
  cases well with
  | including target' comment named =>
    obtain rfl := Option.some.inj names
    exact ⟨rfl, named⟩
  | default => simp at names
  | matching plain => simp [plain] at names

theorem WellFormed.of_default [RegexEngine] {kind : String} (well : rule.WellFormed set)
    (plain : rule.includes = none) (gives : rule.defaultToken = some kind) :
    rule.defaultsMore = false := by
  cases well with
  | including => simp at plain
  | default => rfl
  | matching _ noDefault => simp [noDefault] at gives

end Rule

namespace RuleSet

variable {set : RuleSet}

theorem mem_names_iff {name : String} : name ∈ set.names ↔ ∃ rules, set.get? name = some rules := by
  constructor
  · intro member
    cases found : set.get? name with
    | some rules => exact ⟨rules, rfl⟩
    | none =>
      obtain ⟨⟨n, rules⟩, inside, rfl⟩ := List.mem_map.mp member
      simpa using List.lookup_eq_none_iff.mp found (n, rules) inside
  · rintro ⟨rules, found⟩
    exact mem_names found

end RuleSet

namespace Marks

variable [RegexEngine] {set : RuleSet}

-- Both follow the readings, as what is read does.
mutual

theorem readState_ok (well : set.WellFormed) {m : Marks set} {path : List String}
    (sound : m.Sound path) (includer : Place) (name : String) (named : name ∈ set.names)
    (chain : ∀ outer ∈ path, Relation.TransGen set.Includes outer name) :
    ∃ r, (m.readState includer name).2 = .ok r := by
  obtain ⟨rules, found⟩ := RuleSet.mem_names_iff.mp named
  cases mark : m.mark name with
  | done e => exact ⟨_, by rw [readState_done found mark]⟩
  | underway =>
    have onPath := (sound.underway name).mp mark
    exact absurd (chain name onPath) (well.acyclic name)
  | untouched =>
    have fewer := untouched_begin found mark
    have edges : ∀ rule ∈ rules, ∀ target, rule.includes = some target →
        ∀ outer ∈ path ++ [name], Relation.TransGen set.Includes outer target := by
      intro rule member target names outer onPath
      have edge : set.Includes name target := ⟨rules, found, rule, member, names⟩
      rcases List.mem_append.mp onPath with onPath | here
      · exact (chain outer onPath).tail edge
      · obtain rfl := List.mem_singleton.mp here
        exact .single edge
    have all := well.entries ⟨name, []⟩ rules (by simp [found])
    obtain ⟨r, read⟩ := readFrom_ok well (sound.begin mark) ⟨name, []⟩ 0 rules
      (RuleSet.written_state found) all edges
    rw [readState_untouched found mark]
    exact ⟨r.finish, congrArg (Except.map Reading.finish) read⟩
termination_by (m.untouched.length, 0)

theorem readFrom_ok (well : set.WellFormed) {m : Marks set} {path : List String}
    (sound : m.Sound path) (place : Place) (index : Nat) (rest : List Rule)
    (written : (set.listAt? place).map (List.drop index) = some rest)
    (all : ∀ rule ∈ rest, rule.WellFormed set)
    (edges : ∀ rule ∈ rest, ∀ target, rule.includes = some target →
      ∀ outer ∈ path, Relation.TransGen set.Includes outer target) :
    ∃ r, (m.readFrom place index rest written).2 = .ok r := by
  cases rest with
  | nil => exact ⟨_, by rw [readFrom]⟩
  | cons rule rest =>
    have here := all rule List.mem_cons_self
    have all := fun r inside => all r (List.mem_cons_of_mem rule inside)
    have others := fun r inside => edges r (List.mem_cons_of_mem rule inside)
    cases names : rule.includes with
    | some target =>
      obtain ⟨alone, named⟩ := here.of_including names
      have chain := edges rule List.mem_cons_self target names
      obtain ⟨first, inner⟩ := readState_ok well sound place target named chain
      have between := (readState_expands sound inner).2
      obtain ⟨last, tail⟩ := readFrom_ok well between place (index + 1) rest
        (RuleSet.written_tail written) all others
      exact ⟨_, by rw [outcome_including names alone, inner, Except.bind, tail]; rfl⟩
    | none =>
      obtain ⟨last, tail⟩ := readFrom_ok well sound place (index + 1) rest
        (RuleSet.written_tail written) all others
      cases gives : rule.defaultToken with
      | some kind =>
        have alone := here.of_default names gives
        rw [readFrom_default names gives alone]
        exact ⟨_, congrArg (Except.map _) tail⟩
      | none =>
        rw [readFrom_matching names gives]
        exact ⟨_, congrArg (Except.map _) tail⟩
termination_by (m.untouched.length, rest.length + 1)
decreasing_by
  · decreasing_tactic
  · decreasing_tactic
  · exact lex_of_le first.within (by decreasing_tactic)

end

end Marks

end StackLexer
