import Mathlib
import StackLexer.Proofs.Grammar.Numbering
import StackLexer.Proofs.Grammar.PushPlaces

/-! Patterns that rules share.
A regex is compiled once for each case flag with which it is written, and nothing else is compiled. So
the patterns of a lexicon are told apart by their regexes and flags, and these are the ones that occur in
the rule set. -/

namespace StackLexer

def Pattern.key (p : Pattern) : String × Bool := (p.source, p.caseInsensitive)

def RuleSet.Writes (set : RuleSet) (key : String × Bool) : Prop :=
  ∃ place rules, set.listAt? place = some rules ∧
    ∃ rule ∈ rules, rule.regex = some key.1 ∧ rule.caseInsensitive.getD false = key.2

/-- No two patterns are the same, and each is one that an entry asks for. -/
structure Patterns.Drawn (set : RuleSet) (patterns : Array Pattern) : Prop where
  once : (patterns.toList.map Pattern.key).Nodup
  written : ∀ p ∈ patterns, set.Writes p.key

variable {set : RuleSet}

theorem Located.writes (entry : Located set) {regex : String} (asks : entry.rule.regex = some regex) :
    set.Writes (regex, entry.rule.caseInsensitive.getD false) := by
  obtain ⟨rules, found, at_⟩ := Option.bind_eq_some_iff.mp entry.written
  exact ⟨entry.place, rules, found, entry.rule, List.mem_of_getElem? at_, asks, rfl⟩

theorem RuleSet.Expands.exists_of_regex {place : Place} {rules : List Rule} {e : Expansion set}
    (expands : set.Expands place 0 rules e) {rule : Rule} (inside : rule ∈ rules) {regex : String}
    (asks : rule.regex = some regex) : ∃ entry ∈ e.rules, entry.rule = rule := by
  obtain ⟨i, at_⟩ := List.mem_iff_getElem?.mp inside
  rcases expands.entry at_ with said | said | said
  · obtain ⟨_, _, alone, _⟩ := said
    simp [Rule.includesMore, asks] at alone
  · obtain ⟨_, _, _, alone⟩ := said
    simp [Rule.defaultsMore, asks] at alone
  · obtain ⟨entry, present, _, _, same⟩ := said
    exact ⟨entry, present, same⟩

namespace Patterns

variable {patterns after : Array Pattern}

theorem Drawn.push (drawn : Drawn set patterns) {p : Pattern} (new : ∀ q ∈ patterns, q.key ≠ p.key)
    (written : set.Writes p.key) : Drawn set (patterns.push p) := by
  constructor
  case once =>
    rw [Array.toList_push, List.map_append]
    refine List.nodup_append'.mpr ⟨drawn.once, List.nodup_singleton _, fun key before here => ?_⟩
    obtain ⟨q, inside, rfl⟩ := List.mem_map.mp before
    exact new q (Array.mem_toList_iff.mp inside) (by simpa using here)
  case written =>
    intro q member
    rcases Array.mem_push.mp member with old | rfl
    · exact drawn.written q old
    · exact written

theorem Drawn.pattern [RegexEngine] (drawn : Drawn set patterns) {regex : String} {flag : Bool} {slot : Nat}
    {p : Pattern} (written : set.Writes (regex, flag))
    (h : Loading.pattern patterns regex flag = .ok (slot, p, after)) : Drawn set after := by
  unfold Loading.pattern at h
  simp only at h
  split at h
  · obtain ⟨-, -, rfl⟩ := by simpa using h
    exact drawn
  · rename_i none_
    cases made : Pattern.compile regex flag with
    | error fault => simp [made, bind, Except.bind] at h
    | ok new =>
      obtain ⟨-, -, rfl⟩ : patterns.size = slot ∧ new = p ∧ patterns.push new = after := by
        simpa [made, bind, Except.bind] using h
      have key : new.key = (regex, flag) := by
        obtain ⟨source, flag⟩ := Pattern.source_of_compile made
        rw [Pattern.key, source, flag]
      refine drawn.push (fun q inside same => ?_) (key ▸ written)
      rw [key, Pattern.key, Prod.mk.injEq] at same
      have like : (q.source == regex && q.caseInsensitive == flag) = true := by simp [same]
      -- With such a pattern at hand both searches would have succeeded.
      have found : (patterns.find? (fun p =>
          p.source == regex && p.caseInsensitive == flag)).isSome :=
        Array.find?_isSome.mpr ⟨q, inside, like⟩
      have index : (patterns.findIdx? (fun p =>
          p.source == regex && p.caseInsensitive == flag)).isSome := by
        rw [Array.findIdx?_isSome]
        exact Array.any_eq_true'.mpr ⟨q, inside, like⟩
      obtain ⟨slot', index⟩ := Option.isSome_iff_exists.mp index
      obtain ⟨found', found⟩ := Option.isSome_iff_exists.mp found
      exact none_ slot' found' index found

theorem Drawn.check [RegexEngine] (drawn : Drawn set patterns) {entry : Located set} {c : Loading.Checked entry}
    (checked : Loading.check patterns entry = .ok c) : Drawn set c.patterns := by
  unfold Loading.check at checked
  cases fields : Loading.matching entry with
  | error e => simp [fields, bind, Except.bind] at checked
  | ok found =>
    obtain ⟨tokens, regex⟩ := found
    obtain ⟨_, asks, _⟩ := Loading.matching_ok fields
    simp only [fields, bind, Except.bind] at checked
    split at checked
    · simp at checked
    · rename_i slot p after compiled
      have grown := drawn.pattern (entry.writes asks) compiled
      cases tokensOk : Loading.checkTokens entry tokens p with
      | error e => simp [tokensOk] at checked
      | ok unit_ =>
        cases leads : Loading.target entry with
        | error e => simp [tokensOk, leads] at checked
        | ok t =>
          simp only [tokensOk, leads, Except.ok.injEq] at checked
          obtain rfl := checked
          exact grown

end Patterns

namespace Loading

variable {a b : Assembly set}

theorem compiles_drawn [RegexEngine] {agenda : List (StateId × Located set)}
    (drawn : Patterns.Drawn set a.patterns) (h : Compiles a agenda (.ok b)) :
    Patterns.Drawn set b.patterns := by
  generalize outcome : Except.ok b = result at h
  induction h with
  | done a => exact Except.ok.inj outcome ▸ drawn
  | refused | unread => simp at outcome
  | known checked _ _ ih => exact ih (drawn.check checked) outcome
  | met checked _ _ _ ih => exact ih (drawn.check checked) outcome
  | opens checked _ _ _ _ ih => exact ih (drawn.check checked) outcome

theorem builds_drawn [RegexEngine] {names : List String} {index : Nat}
    (drawn : Patterns.Drawn set a.patterns) (h : Builds a index names (.ok b)) :
    Patterns.Drawn set b.patterns := by
  generalize outcome : Except.ok b = result at h
  induction h with
  | done a => exact Except.ok.inj outcome ▸ drawn
  | unread | refused => simp at outcome
  | @next a _ index _ _ reading _ _ compiled _ ih =>
    exact ih (compiles_drawn (a := a.beginState ⟨index⟩ reading) drawn compiled) outcome

theorem Invariant.drawn [RegexEngine] (inv : Invariant (namedLists set.names) a []) {key : String × Bool}
    (written : set.Writes key) : key ∈ a.patterns.toList.map Pattern.key := by
  obtain ⟨place, rules, found, rule, inside, asks, flag⟩ := written
  obtain ⟨id, member⟩ := inv.listed place rules found (List.ne_nil_of_mem inside)
  obtain ⟨e, _, _, expands, _⟩ := inv.filled _ id member
  have made := inv.made member expands
  obtain ⟨rules', found', expands⟩ := expands
  obtain rfl := Option.some.inj (found.symm.trans found')
  obtain ⟨entry, present, rfl⟩ := expands.exists_of_regex inside asks
  obtain ⟨rule', compiled⟩ := made entry present
  have source := Option.some.inj (compiled.regex.symm.trans asks)
  obtain ⟨_, same⟩ := Pattern.source_of_compile compiled.compiles
  refine List.mem_map.mpr ⟨rule'.pattern, ?_, ?_⟩
  · exact Array.mem_toList_iff.mpr (Array.mem_of_getElem? compiled.slot)
  · rw [Pattern.key, source, same, flag]

end Loading

namespace RuleSet

variable [RegexEngine]

theorem assembly_drawn {a : Assembly set} (made : set.assembly = .ok a) :
    Patterns.Drawn set a.patterns :=
  Loading.builds_drawn (a := set.blank) ⟨.nil, by simp [blank]⟩ (made ▸ set.assembly_builds)

variable {x : Lexicon}

theorem nodup_patternKeys (loaded : set.load.2 = .ok x) :
    (x.patterns.toList.map Pattern.key).Nodup := by
  obtain ⟨a, start, made, _, rfl⟩ := load_eq_ok_iff.mp loaded
  exact (assembly_drawn made).once

/-- The patterns of a loaded lexicon are those of the regexes and flags that are written. -/
theorem mem_patternKeys (loaded : set.load.2 = .ok x) {key : String × Bool} :
    key ∈ x.patterns.toList.map Pattern.key ↔ set.Writes key := by
  obtain ⟨a, start, made, _, rfl⟩ := load_eq_ok_iff.mp loaded
  constructor
  · intro member
    obtain ⟨p, inside, rfl⟩ := List.mem_map.mp member
    exact (assembly_drawn made).written p (Array.mem_toList_iff.mp inside)
  · exact (assembly_invariant made).drawn

end RuleSet

end StackLexer
