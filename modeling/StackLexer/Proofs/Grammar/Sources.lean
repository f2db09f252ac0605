import Mathlib
import StackLexer.Proofs.Grammar.Arena
import StackLexer.Regex.Engine

/-! Where the states of a lexicon come from.
No two lists that are compiled share a number, so each state can be traced back to the list it was
made from. From such a state transitions lead to such states only. -/

namespace StackLexer

def Transition.target? : Transition → Option StateId
  | .stay | .pop => none
  | .goto id | .push id => some id

def Lexicon.Closed (x : Lexicon) (holds : StateId → Prop) : Prop :=
  ∀ id, holds id → ∀ rule ∈ (x.state id).rules, ∀ target,
    rule.transition.target? = some target → holds target

variable {set : RuleSet}

namespace Assembly

def lists (a : Assembly set) : List (PushKey × StateId) :=
  Loading.namedLists set.names ++ a.opened

def source (a : Assembly set) (id : StateId) : Option PushKey :=
  (a.lists.find? (fun list => list.2 = id)).map Prod.fst

end Assembly

/-- The list that a state was made from when the rule set was loaded. -/
def RuleSet.source [RegexEngine] (set : RuleSet) (id : StateId) : Option PushKey :=
  set.assembly.toOption.bind (fun a => a.source id)

def RuleSet.Made [RegexEngine] (set : RuleSet) (id : StateId) : Prop := ∃ key, set.source id = some key

namespace Loading

theorem namedLists_ids (names : List String) :
    (namedLists names).map Prod.snd = (List.range names.length).map StateId.mk := by
  simp only [namedLists, List.map_map, List.range_eq_range', ← List.zipIdx_map_snd 0 names]
  rfl

variable [RegexEngine] {a : Assembly set} {key : PushKey} {id : StateId}

theorem Invariant.lists_nodup (inv : Invariant (namedLists set.names) a []) :
    (a.lists.map Prod.snd).Nodup := by
  rw [Assembly.lists, List.map_append, namedLists_ids]
  refine List.nodup_append'.mpr ⟨?_, inv.distinct, ?_⟩
  · exact List.nodup_range.map (fun i j same => congrArg StateId.index same)
  · intro id named opened
    obtain ⟨i, below, rfl⟩ := List.mem_map.mp named
    obtain ⟨⟨key, id⟩, member, rfl⟩ := List.mem_map.mp opened
    have late := inv.late key _ member
    exact Nat.not_lt.mpr late (List.mem_range.mp below)

theorem Invariant.source_iff (inv : Invariant (namedLists set.names) a []) :
    a.source id = some key ↔ (key, id) ∈ a.lists := by
  constructor
  · intro found
    obtain ⟨list, first, rfl⟩ := Option.map_eq_some_iff.mp found
    obtain rfl : list.2 = id := by simpa using List.find?_some first
    exact List.mem_of_find?_eq_some first
  · intro member
    have some_ : (a.lists.find? (fun list => list.2 = id)).isSome := by
      rw [List.find?_isSome]
      exact ⟨(key, id), member, by simp⟩
    obtain ⟨list, found⟩ := Option.isSome_iff_exists.mp some_
    have same : list.2 = id := by simpa using List.find?_some found
    have inside := List.mem_of_find?_eq_some found
    have same := List.inj_on_of_nodup_map inv.lists_nodup inside member same
    rw [Assembly.source, found, same]
    rfl

theorem Invariant.source_named (inv : Invariant (namedLists set.names) a []) {name : String}
    {i : Nat} (number : set.names.idxOf? name = some i) :
    a.source ⟨i⟩ = some (.list ⟨name, []⟩) := by
  have at_ : set.names[i]? = some name := by
    obtain ⟨bound, same, _⟩ := List.findIdx?_eq_some_iff_getElem.mp number
    rw [List.getElem?_eq_getElem bound]
    simpa using same
  exact inv.source_iff.mpr (List.mem_append_left _ (mem_namedLists.mpr ⟨name, at_, rfl⟩))

theorem Invariant.source_opened (inv : Invariant (namedLists set.names) a [])
    (number : a.opened.lookup key = some id) : a.source id = some key :=
  inv.source_iff.mpr (List.mem_append_right _ (mem_of_lookup number))

theorem Invariant.source_target (inv : Invariant (namedLists set.names) a [])
    {entry : Located set} {t : Transition} (leads : LeadsTo a.opened entry t) {target : StateId}
    (leadsTo : t.target? = some target) : ∃ key, a.source target = some key := by
  cases leads with
  | stay | pop => simp [Transition.target?] at leadsTo
  | goto _ _ _ named | push _ _ named =>
    obtain rfl := Option.some.inj leadsTo
    exact ⟨_, inv.source_named named⟩
  | list _ _ number =>
    obtain rfl := Option.some.inj leadsTo
    exact ⟨_, inv.source_opened number⟩

end Loading

namespace RuleSet

theorem names_nodup (set : RuleSet) : set.names.Nodup :=
  List.pairwise_map.mpr (set.states.sorted.imp String.ne_of_lt)

section

variable [RegexEngine] {x : Lexicon}

theorem source_of_assembly {a : Assembly set} (made : set.assembly = .ok a) (id : StateId) :
    set.source id = a.source id := by
  rw [source, made]
  rfl

theorem mem_names_of_stateId? (loaded : set.load.2 = .ok x) {name : String} :
    (∃ id, x.stateId? name = some id) ↔ name ∈ set.names := by
  obtain ⟨a, start, _, _, rfl⟩ := load_eq_ok_iff.mp loaded
  rw [← List.isSome_idxOf?, Option.isSome_iff_exists]
  simp [Lexicon.stateId?]

theorem stateId?_of_name (loaded : set.load.2 = .ok x) {id : StateId} {name : String}
    (at_ : set.names[id.index]? = some name) : x.stateId? name = some id := by
  obtain ⟨a, start, made, _, rfl⟩ := load_eq_ok_iff.mp loaded
  obtain ⟨bound, here⟩ := List.getElem?_eq_some_iff.mp at_
  have first : set.names.idxOf? name = some id.index := by
    refine List.idxOf?_eq_some_iff.mpr ⟨bound, here, fun j earlier same => ?_⟩
    have other := set.names_nodup.getElem_inj_iff.mp (same.trans here.symm)
    exact Nat.ne_of_lt earlier other
  rw [Lexicon.stateId?, first]
  rfl

theorem stateId?_startName (loaded : set.load.2 = .ok x) : x.stateId? startName = some x.start := by
  obtain ⟨a, start, _, first, rfl⟩ := load_eq_ok_iff.mp loaded
  rw [Lexicon.stateId?, first]
  rfl

theorem source_of_stateId? (loaded : set.load.2 = .ok x) {name : String} {id : StateId}
    (named : x.stateId? name = some id) : set.source id = some (.list ⟨name, []⟩) := by
  obtain ⟨a, start, made, _, rfl⟩ := load_eq_ok_iff.mp loaded
  obtain ⟨i, number, rfl⟩ := Option.map_eq_some_iff.mp named
  rw [source_of_assembly made]
  exact (assembly_invariant made).source_named number

theorem made_bound (loaded : set.load.2 = .ok x) {id : StateId} (made : set.Made id) :
    id.index < x.stateCount := by
  obtain ⟨key, source⟩ := made
  obtain ⟨a, start, made, _, rfl⟩ := load_eq_ok_iff.mp loaded
  rw [source_of_assembly made] at source
  have inv := assembly_invariant made
  exact (inv.filled key id (inv.source_iff.mp source)).bound

theorem state_of_source (loaded : set.load.2 = .ok x) {id : StateId} {key : PushKey}
    (source : set.source id = some key) :
    ∃ (a : Assembly set) (e : Expansion set), set.assembly = .ok a ∧ key.Expands set e ∧
      (x.state id).defaultToken = e.defaultToken ∧
      List.Forall₂ (CompiledFrom a) e.rules (x.state id).rules.toList := by
  obtain ⟨a, start, made, _, rfl⟩ := load_eq_ok_iff.mp loaded
  have inv := assembly_invariant made
  rw [source_of_assembly made] at source
  obtain ⟨e, state, done, expands, found, default, split, compiled⟩ :=
    inv.filled key id (inv.source_iff.mp source)
  rw [Loading.pending_nil, List.append_nil] at split
  have same : Lexicon.state ⟨a.states, set.names, ⟨start⟩, a.patterns⟩ id = state := by
    simp [Lexicon.state, found]
  rw [same]
  exact ⟨a, e, made, expands, default, split ▸ compiled⟩

theorem load_closed (loaded : set.load.2 = .ok x) : x.Closed set.Made := by
  rintro id ⟨key, source⟩ rule member target leads
  obtain ⟨a, e, made, _, _, compiled⟩ := state_of_source loaded source
  obtain ⟨entry, _, fromEntry⟩ := exists_related compiled.flip (Array.mem_toList_iff.mpr member)
  obtain ⟨other, source⟩ := (assembly_invariant made).source_target fromEntry.leads leads
  exact ⟨other, (source_of_assembly made target).trans source⟩

end

/-- Brackets that nest, and that may be closed once too often. The list that an opening bracket pushes
includes the state in which it is written. -/
def brackets : RuleSet :=
  RuleSet.empty.withState "start"
    [(Rule.single "open" "\\(").withPush
      [(Rule.single "close" "\\)").withNext "pop", Rule.including "start"],
      (Rule.single "stray" "\\)").withNext "pop"]

theorem load_of_toOption [RegexEngine] {x : Lexicon} (found : set.load.2.toOption = some x) :
    set.load.2 = .ok x := by
  cases result : set.load.2 with
  | ok y => simpa [result, Except.toOption] using found
  | error e => simp [result, Except.toOption] at found

theorem brackets_load : ∃ x, brackets.load.2 = .ok x ∧ x.stateId? "start" = some ⟨0⟩ := by
  have begins : brackets.load.2.toOption.bind (fun x => x.stateId? "start") = some ⟨0⟩ := by cbv
  obtain ⟨x, found, named⟩ := Option.bind_eq_some_iff.mp begins
  exact ⟨x, load_of_toOption found, named⟩

end RuleSet

end StackLexer
