import Mathlib
import StackLexer.Proofs.Grammar.Sources

/-! How the states of a lexicon are numbered.
The named states come first. Each list that is opened gets the number after all before it, and no list is
opened twice, so the number of a state tells its list and all numbers up to the last are those of lists. -/

namespace StackLexer

variable {set : RuleSet}

namespace Assembly

def met (a : Assembly set) : List PushKey := (a.opened.map Prod.fst).reverse

def keys (a : Assembly set) : List PushKey := set.names.map (fun name => .list ⟨name, []⟩) ++ a.met

theorem met_openList (a : Assembly set) (key : PushKey) (reading : a.marks.Reading) :
    (a.openList key reading).met = a.met ++ [key] := by
  simp [met, openList]

end Assembly

namespace Loading

/-- The opened lists have the numbers after the names, one each, and states of their own without names.
They are lists that are written somewhere. -/
structure Numbered (a : Assembly set) : Prop where
  numbers : (a.opened.map Prod.snd).reverse =
    (List.range' set.names.length a.opened.length).map StateId.mk
  once : a.met.Nodup
  names : a.states.toList.map Lexicon.State.name =
    set.names.map some ++ List.replicate a.opened.length none
  written : ∀ key ∈ a.met, ∃ place ∈ set.pushPlaces, set.keyAt place = key

variable {a : Assembly set} {id : StateId} {entry : Located set}

theorem names_modify {states : Array Lexicon.State} {i : Nat} {f : Lexicon.State → Lexicon.State}
    (same : ∀ s, (f s).name = s.name) :
    (states.modify i f).toList.map Lexicon.State.name = states.toList.map Lexicon.State.name := by
  apply List.ext_getElem?
  intro j
  simp only [List.getElem?_map, Array.getElem?_toList, Array.getElem?_modify]
  split
  · cases states[j]? <;> simp [same]
  · rfl

theorem Numbered.addRule (numbered : Numbered a) (id : StateId) (rule : Lexicon.Rule)
    (patterns : Array Pattern) : Numbered (a.addRule id rule patterns) := by
  obtain ⟨numbers, once, names, written⟩ := numbered
  have same (s : Lexicon.State) :
      ({ s with rules := s.rules.push rule } : Lexicon.State).name = s.name := rfl
  exact ⟨numbers, once, (names_modify same).trans names, written⟩

theorem Numbered.beginState (numbered : Numbered a) (id : StateId) (reading : a.marks.Reading) :
    Numbered (a.beginState id reading) := by
  obtain ⟨numbers, once, names, written⟩ := numbered
  have same (s : Lexicon.State) :
      ({ s with defaultToken := reading.expansion.defaultToken } : Lexicon.State).name = s.name := rfl
  exact ⟨numbers, once, (names_modify same).trans names, written⟩

theorem Numbered.size (numbered : Numbered a) :
    a.states.size = set.names.length + a.opened.length := by
  have lengths := congrArg List.length numbered.names
  simpa using lengths

theorem Numbered.openList (numbered : Numbered a) {entries : List Rule}
    (pushed : entry.rule.pushed? = some entries)
    (new : a.opened.lookup (set.keyAt (entry.place.push entry.index)) = none)
    (reading : a.marks.Reading) :
    Numbered (a.openList (set.keyAt (entry.place.push entry.index)) reading) := by
  have met := a.met_openList (set.keyAt (entry.place.push entry.index)) reading
  constructor
  case numbers =>
    simp only [Assembly.openList, Assembly.nextId, List.map_cons, List.reverse_cons,
      List.length_cons, List.range'_1_concat, List.map_append, List.map_nil, numbered.numbers,
      numbered.size]
  case once =>
    rw [met]
    refine List.nodup_append'.mpr ⟨numbered.once, List.nodup_singleton _, ?_⟩
    intro key before here
    obtain rfl := List.mem_singleton.mp here
    obtain ⟨⟨key, id⟩, inside, rfl⟩ := List.mem_map.mp (List.mem_reverse.mp before)
    simpa using List.lookup_eq_none_iff.mp new _ inside
  case names =>
    simp [Assembly.openList, numbered.names, List.replicate_succ', List.append_assoc]
  case written =>
    rw [met]
    intro key member
    rcases List.mem_append.mp member with before | here
    · exact numbered.written key before
    · obtain rfl := List.mem_singleton.mp here
      exact ⟨_, RuleSet.mem_pushPlaces (listAt?_pushed entry pushed), rfl⟩

theorem compiles_numbered [RegexEngine] {agenda : List (StateId × Located set)} {b : Assembly set}
    (numbered : Numbered a) (h : Compiles a agenda (.ok b)) : Numbered b := by
  generalize outcome : Except.ok b = result at h
  induction h with
  | done a => exact Except.ok.inj outcome ▸ numbered
  | refused | unread => simp at outcome
  | known _ _ _ ih => exact ih (numbered.addRule _ _ _) outcome
  | met _ _ _ _ ih => exact ih (numbered.addRule _ _ _) outcome
  | @opens _ _ _ _ _ _ _ pushed reading _ _ new _ _ ih =>
    exact ih ((numbered.openList pushed new reading).addRule _ _ _) outcome

theorem builds_numbered [RegexEngine] {names : List String} {index : Nat} {b : Assembly set}
    (numbered : Numbered a) (h : Builds a index names (.ok b)) : Numbered b := by
  generalize outcome : Except.ok b = result at h
  induction h with
  | done a => exact Except.ok.inj outcome ▸ numbered
  | unread | refused => simp at outcome
  | next _ compiled _ ih => exact ih (compiles_numbered (numbered.beginState _ _) compiled) outcome

theorem Numbered.number_of_opened (numbered : Numbered a) {i : Nat} {list : PushKey × StateId}
    (at_ : a.opened.reverse[i]? = some list) : list.2.index = set.names.length + i := by
  have bound : i < a.opened.length := by
    simpa using (List.getElem?_eq_some_iff.mp at_).1
  have number := congrArg (fun numbers => numbers[i]?) numbered.numbers
  simp only [← List.map_reverse, List.getElem?_map, at_, List.getElem?_range' bound] at number
  simpa using congrArg (Option.map StateId.index) number

theorem Numbered.mem_opened (numbered : Numbered a) {key : PushKey} :
    (key, id) ∈ a.opened ↔ ∃ i, a.met[i]? = some key ∧ id.index = set.names.length + i := by
  simp only [Assembly.met, ← List.map_reverse, List.getElem?_map]
  constructor
  · intro member
    obtain ⟨i, at_⟩ := List.mem_iff_getElem?.mp (List.mem_reverse.mpr member)
    exact ⟨i, by rw [at_]; rfl, numbered.number_of_opened at_⟩
  · rintro ⟨i, here, number⟩
    obtain ⟨⟨key, other⟩, at_, rfl⟩ := Option.map_eq_some_iff.mp here
    obtain rfl : other = id := by
      cases other
      cases id
      exact congrArg StateId.mk ((numbered.number_of_opened at_).trans number.symm)
    exact List.mem_reverse.mp (List.mem_of_getElem? at_)

theorem Numbered.source_eq [RegexEngine] (numbered : Numbered a) (inv : Invariant (namedLists set.names) a [])
    (id : StateId) : a.source id = a.keys[id.index]? := by
  apply Option.ext
  intro key
  rw [inv.source_iff, Assembly.lists, List.mem_append, numbered.mem_opened, mem_namedLists,
    Assembly.keys]
  constructor
  · rintro (⟨name, at_, rfl⟩ | ⟨i, at_, number⟩)
    · have bound : id.index < set.names.length := (List.getElem?_eq_some_iff.mp at_).1
      rw [List.getElem?_append_left (by simpa using bound), List.getElem?_map, at_]
      rfl
    · rw [List.getElem?_append_right (by simp [number]), List.length_map, number,
        Nat.add_sub_cancel_left, at_]
  · intro at_
    by_cases bound : id.index < set.names.length
    · rw [List.getElem?_append_left (by simpa using bound), List.getElem?_map] at at_
      obtain ⟨name, here, rfl⟩ := Option.map_eq_some_iff.mp at_
      exact .inl ⟨name, here, rfl⟩
    · rw [List.getElem?_append_right (by simpa using bound), List.length_map] at at_
      exact .inr ⟨_, at_, by omega⟩

end Loading

namespace RuleSet

theorem numbered_blank (set : RuleSet) : Loading.Numbered set.blank :=
  ⟨rfl, .nil, by simp [blank], by simp [blank, Assembly.met]⟩

theorem assembly_numbered [RegexEngine] {a : Assembly set} (made : set.assembly = .ok a) : Loading.Numbered a :=
  Loading.builds_numbered set.numbered_blank (made ▸ set.assembly_builds)

variable {x : Lexicon}

theorem made_of_bound [RegexEngine] (loaded : set.load.2 = .ok x) {id : StateId}
    (bound : id.index < x.stateCount) : set.Made id := by
  obtain ⟨a, start, made, _, rfl⟩ := load_eq_ok_iff.mp loaded
  have numbered := assembly_numbered made
  have inside : id.index < a.keys.length := by
    have size := numbered.size
    simp only [Assembly.keys, Assembly.met, List.length_append, List.length_map, List.length_reverse]
    exact size ▸ bound
  refine ⟨a.keys[id.index], ?_⟩
  rw [source_of_assembly made, numbered.source_eq (assembly_invariant made)]
  exact List.getElem?_eq_getElem inside

end RuleSet

end StackLexer
