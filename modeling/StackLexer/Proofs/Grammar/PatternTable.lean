import Mathlib.Data.Set.Card
import StackLexer.Proofs.Grammar.SharedPatterns
import StackLexer.Proofs.Lexing.Layout

/-! The table of patterns.
Each rule of a lexicon was made from an entry, and its slot in the table of patterns is that of the regex
and the case flag of the entry. Entries with the same regex and flag share a slot, wherever they are
written and however they are reached, and no slot is left over. -/

namespace StackLexer

def Rule.patternKey? (rule : Rule) : Option (String × Bool) :=
  rule.regex.map (fun regex => (regex, rule.caseInsensitive.getD false))

namespace RuleSet

section

variable [RegexEngine]

/-- A rule was made from an entry: it stands in some state where the entry stands in the list that the
state was made from, with the includes of the list spliced. -/
def Wrote (set : RuleSet) (x : Lexicon) (entry : Rule) (rule : Lexicon.Rule) : Prop :=
  ∃ (id : StateId) (place source : Place) (index i : Nat), set.StandsFor id place ∧
    (set.spliced place)[i]? = some (source, index, entry) ∧ (x.state id).rules[i]? = some rule

variable {set : RuleSet} {x : Lexicon} {a : Assembly set} {entry : Rule} {rule : Lexicon.Rule}

theorem wrote_of_expands {id : StateId} {place : Place} {e : Expansion set}
    (stands : set.StandsFor id place) (expands : (set.keyAt place).Expands set e) {i : Nat}
    {located : Located set} (here : e.rules[i]? = some located)
    (there : (x.state id).rules[i]? = some rule) : set.Wrote x located.rule rule := by
  refine ⟨id, place, located.place, located.index, i, stands, ?_, there⟩
  rw [spliced_of_keyAt expands, List.getElem?_map, here]
  rfl

theorem compiled_of_wrote (loaded : set.load.2 = .ok x) (made : set.assembly = .ok a)
    (wrote : set.Wrote x entry rule) :
    ∃ located : Located set, located.rule = entry ∧ CompiledFrom a located rule := by
  obtain ⟨id, place, source, index, i, stands, here, there⟩ := wrote
  rw [standsFor_eq made] at stands
  have stands : set.StandsAt x a.met (source, index, entry) rule := ⟨id, place, i, stands, here, there⟩
  obtain ⟨located, _, _, same, compiled⟩ := compiled_of_standsAt loaded made stands
  exact ⟨located, same, compiled⟩

theorem exists_wrote (loaded : set.load.2 = .ok x) {state : Lexicon.State} (member : state ∈ x.states)
    (inside : rule ∈ state.rules) : ∃ entry, set.Wrote x entry rule := by
  obtain ⟨a, _, made, _, _⟩ := load_eq_ok_iff.mp loaded
  obtain ⟨j, bound, rfl⟩ := Array.mem_iff_getElem.mp member
  obtain ⟨i, there⟩ := Array.mem_iff_getElem?.mp inside
  have state : x.state ⟨j⟩ = x.states[j] := by
    rw [Lexicon.state, Array.getElem?_eq_getElem bound, Option.getD_some]
  rw [← state] at there
  have below : (⟨j⟩ : StateId).index < x.stateCount := bound
  obtain ⟨place, _, numbers⟩ := layout_taken loaded made below
  obtain ⟨e, expands, _, compiled⟩ := state_of_numbers loaded made numbers
  rw [← standsFor_eq made] at numbers
  have listed : i < e.rules.length := by
    rw [compiled.length_eq, Array.length_toList]
    exact (Array.getElem?_eq_some_iff.mp there).1
  exact ⟨_, wrote_of_expands numbers expands (List.getElem?_eq_getElem listed) there⟩

theorem patternKey?_of_compiled {located : Located set} (compiled : CompiledFrom a located rule) :
    located.rule.patternKey? = some rule.pattern.key := by
  obtain ⟨_, flag⟩ := Pattern.source_of_compile compiled.compiles
  rw [Rule.patternKey?, compiled.regex, Option.map_some, Pattern.key, flag]

theorem wrote_of_writes (loaded : set.load.2 = .ok x) {key : String × Bool} (writes : set.Writes key) :
    ∃ entry rule, set.Wrote x entry rule ∧ entry.patternKey? = some key := by
  obtain ⟨a, _, made, _, _⟩ := load_eq_ok_iff.mp loaded
  have inv := assembly_invariant made
  obtain ⟨place, rules, found, entry, inside, asks, flag⟩ := writes
  have some_ := List.ne_nil_of_mem inside
  -- A list with entries has a state, and what asks for a regex in it is no include and stays.
  obtain ⟨id, member⟩ := inv.listed place rules found some_
  have stands : set.StandsFor id place := by
    rw [standsFor_iff made, keyAt_of_ne_nil found some_]
    exact inv.source_iff.mpr member
  obtain ⟨_, e, _, expands, _, compiled⟩ := state_of_source loaded stands
  have list := expands
  rw [keyAt_of_ne_nil found some_] at list
  obtain ⟨rules', found', list⟩ := list
  obtain rfl := Option.some.inj (found.symm.trans found')
  obtain ⟨located, present, rfl⟩ := list.exists_of_regex inside asks
  obtain ⟨i, here⟩ := List.mem_iff_getElem?.mp present
  have bound : i < (x.state id).rules.size := by
    rw [← Array.length_toList, ← compiled.length_eq]
    exact (List.getElem?_eq_some_iff.mp here).1
  have wrote := wrote_of_expands stands expands here (Array.getElem?_eq_getElem bound)
  refine ⟨_, _, wrote, ?_⟩
  rw [Rule.patternKey?, asks, flag]
  rfl

theorem slot_inj (loaded : set.load.2 = .ok x) {slot slot' : Nat} {p q : Pattern}
    (at_ : x.patterns[slot]? = some p) (at_' : x.patterns[slot']? = some q) (same : p.key = q.key) :
    slot = slot' := by
  have keys (i : Nat) (r : Pattern) (here : x.patterns[i]? = some r) :
      (x.patterns.toList.map Pattern.key)[i]? = some r.key := by
    rw [List.getElem?_map, Array.getElem?_toList, here]
    rfl
  have first := keys slot p at_
  have second := keys slot' q at_'
  rw [← same, ← first] at second
  have bound := (List.getElem?_eq_some_iff.mp first).1
  exact (List.getElem?_inj bound (nodup_patternKeys loaded)).mp second.symm

/-- In a lexicon that was loaded each rule of each state was made from an entry, and its pattern was
compiled from the regex and the flag of the entry. Two rules share a pattern if and only if the regexes of
their entries are the same and the flags are, where no flag counts as false. There are as many patterns as
there are different regexes with flags in the entries of all rules. -/
theorem loaded_patterns_shared (loaded : set.load.2 = .ok x) :
    (∀ state ∈ x.states, ∀ rule ∈ state.rules, ∃ entry, set.Wrote x entry rule) ∧
      (∀ entry rule, set.Wrote x entry rule → x.patterns[rule.slot]? = some rule.pattern ∧
        ∃ regex, entry.regex = some regex ∧
          Pattern.compile regex (entry.caseInsensitive.getD false) = .ok rule.pattern) ∧
      (∀ entry rule, set.Wrote x entry rule → ∀ other rule', set.Wrote x other rule' →
        (rule.slot = rule'.slot ↔ entry.regex = other.regex ∧
          entry.caseInsensitive.getD false = other.caseInsensitive.getD false)) ∧
      x.patternCount =
        Set.ncard {key | ∃ entry rule, set.Wrote x entry rule ∧ entry.patternKey? = some key} := by
  obtain ⟨a, _, made, _, lexicon⟩ := load_eq_ok_iff.mp loaded
  have patterns : x.patterns = a.patterns := by rw [lexicon]
  refine ⟨fun _ member _ inside => exists_wrote loaded member inside, ?_, ?_, ?_⟩
  · intro entry rule wrote
    obtain ⟨located, rfl, compiled⟩ := compiled_of_wrote loaded made wrote
    exact ⟨patterns ▸ compiled.slot, _, compiled.regex, compiled.compiles⟩
  · intro entry rule wrote other rule' wrote'
    obtain ⟨located, rfl, compiled⟩ := compiled_of_wrote loaded made wrote
    obtain ⟨located', rfl, compiled'⟩ := compiled_of_wrote loaded made wrote'
    have at_ := patterns ▸ compiled.slot
    have at_' := patterns ▸ compiled'.slot
    obtain ⟨_, flag⟩ := Pattern.source_of_compile compiled.compiles
    obtain ⟨_, flag'⟩ := Pattern.source_of_compile compiled'.compiles
    rw [compiled.regex, compiled'.regex, Option.some.injEq, ← flag, ← flag']
    constructor
    · intro same
      rw [same, at_'] at at_
      rw [Option.some.inj at_]
      exact ⟨rfl, rfl⟩
    · rintro ⟨source, flags⟩
      exact slot_inj loaded at_ at_' (Prod.ext source flags)
  · -- The keys of the table are those that are asked for, and none of them comes twice.
    have keys : {key | ∃ entry rule, set.Wrote x entry rule ∧ entry.patternKey? = some key} =
        ↑(x.patterns.toList.map Pattern.key).toFinset := by
      ext key
      rw [List.coe_toFinset, Set.mem_ofPred_eq, Set.mem_ofPred_eq]
      constructor
      · rintro ⟨entry, rule, wrote, same⟩
        obtain ⟨located, rfl, compiled⟩ := compiled_of_wrote loaded made wrote
        rw [patternKey?_of_compiled compiled, Option.some.injEq] at same
        have inside := Array.mem_of_getElem? (patterns ▸ compiled.slot)
        exact same ▸ List.mem_map_of_mem (Array.mem_toList_iff.mpr inside)
      · exact fun member => wrote_of_writes loaded ((mem_patternKeys loaded).mp member)
    rw [keys, Set.ncard_coe_finset, List.toFinset_card_of_nodup (nodup_patternKeys loaded),
      List.length_map, Array.length_toList, Lexicon.patternCount]

end

def vowels : RuleSet :=
  RuleSet.empty
    |>.withState "start"
      [(Rule.single "open" "a").withPush [Rule.including "rest", (Rule.single "loud" "a").ignoringCase],
        Rule.including "rest"]
    |>.withState "rest" [Rule.single "vowel" "a"]

theorem vowels_patterns_shared :
    ∃ x, vowels.load.2 = .ok x ∧
      (x.states.toList.map fun state => state.rules.toList.map (·.slot)) = [[0], [0, 0], [0, 1]] ∧
      Set.ncard {key | ∃ entry rule, vowels.Wrote x entry rule ∧ entry.patternKey? = some key} = 2 := by
  have counts : vowels.load.2.toOption.map (fun x =>
      (x.patternCount, x.states.toList.map fun state => state.rules.toList.map (·.slot))) =
      some (2, [[0], [0, 0], [0, 1]]) := by cbv
  obtain ⟨x, found, counts⟩ := Option.map_eq_some_iff.mp counts
  obtain ⟨count, slots⟩ := Prod.mk.inj counts
  have loaded := load_of_toOption found
  obtain ⟨_, _, _, keys⟩ := loaded_patterns_shared loaded
  exact ⟨x, loaded, slots, keys.symm.trans count⟩

end RuleSet

end StackLexer
