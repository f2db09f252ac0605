import StackLexer.Proofs.Grammar.PushPlaces
import StackLexer.Proofs.Grammar.Walk
import StackLexer.Proofs.Lexing.Reference
import StackLexer.Proofs.Text.ByteOrder

/-! How a lexicon is laid out.
The states of the named lists come first, in the order of the names, and those of the pushed lists
follow in the order in which a walk through the rule set meets these. Each state holds the rules of its
own list, and rules that push lists lead to the same state only if they push the same list or lists without
room. -/

namespace StackLexer

namespace RuleSet

theorem names_sorted (set : RuleSet) :
    set.names.Pairwise (fun a b => Text.bytes a < Text.bytes b) :=
  List.pairwise_map.mpr (set.states.sorted.imp Text.bytes_lt)

section

variable [RegexEngine]

def Numbers (set : RuleSet) (order : List PushKey) (id : StateId) (place : Place) : Prop :=
  (set.names.map (fun name => PushKey.list ⟨name, []⟩) ++ order)[id.index]? = some (set.keyAt place)

structure Says (set : RuleSet) (x : Lexicon) (order : List PushKey) (entry : Place × Nat × Rule)
    (rule : Lexicon.Rule) : Prop where
  token : entry.2.2.token = some rule.tokens
  regex : entry.2.2.regex = some rule.pattern.source
  compiles : Pattern.compile rule.pattern.source (entry.2.2.caseInsensitive.getD false) =
    .ok rule.pattern
  slot : x.patterns[rule.slot]? = some rule.pattern
  leads : Move.Related (set.Numbers order) rule.transition (entry.2.2.move entry.1 entry.2.1)

def StandsAt (set : RuleSet) (x : Lexicon) (order : List PushKey) (entry : Place × Nat × Rule)
    (rule : Lexicon.Rule) : Prop :=
  ∃ (id : StateId) (place : Place) (i : Nat), set.Numbers order id place ∧
    (set.spliced place)[i]? = some entry ∧ (x.state id).rules[i]? = some rule

/-- The states of a lexicon are those of the lists of a rule set, with the pushed lists in some order. The
bare lists among these share one state. -/
structure Layout (set : RuleSet) (x : Lexicon) (bare : Place → Bool) (order : List PushKey) : Prop where
  sorted : set.names.Pairwise (fun a b => Text.bytes a < Text.bytes b)
  named : ∀ id name, set.names[id.index]? = some name →
    x.stateId? name = some id ∧ (x.state id).name = some name
  unnamed : ∀ id : StateId, set.names.length ≤ id.index → (x.state id).name = none
  places : ∀ p, p ∈ set.pushPlaces ↔ p.path ≠ [] ∧ ∃ entries, set.listAt? p = some entries
  once : set.pushPlaces.Nodup
  count : x.stateCount = set.names.length +
    (set.pushPlaces.countP (fun p => !bare p) + if set.pushPlaces.any bare then 1 else 0)
  walk : set.Walk [] (set.names.flatMap (fun name => set.spliced ⟨name, []⟩)) order
  only : ∀ other, set.Walk [] (set.names.flatMap (fun name => set.spliced ⟨name, []⟩)) other →
    other = order
  numbered : ∀ p ∈ set.pushPlaces, ∃ id, set.names.length ≤ id.index ∧ id.index < x.stateCount ∧
    set.Numbers order id p
  taken : ∀ id : StateId, id.index < x.stateCount → ∃ place,
    (place.path = [] ∧ place.state ∈ set.names ∨ place ∈ set.pushPlaces) ∧ set.Numbers order id place
  filled : ∀ id place, set.Numbers order id place →
    (x.state id).defaultToken =
        (ownDefault (set.entriesAt place)).or (set.includedDefault [] (set.entriesAt place)) ∧
      List.Forall₂ (set.Says x order) (set.spliced place) (x.state id).rules.toList
  pushes : ∀ p i rule made, set.StandsAt x order (p, i, rule) made →
    rule.pushed?.isSome → set.listAt? (p.push i) = rule.pushed?
  shared : ∀ p i rule made, set.StandsAt x order (p, i, rule) made →
    ∀ q j other made', set.StandsAt x order (q, j, other) made' →
    rule.pushed?.isSome → other.pushed?.isSome →
    ∃ id id', made.transition = .push id ∧ made'.transition = .push id' ∧
      set.names.length ≤ id.index ∧ set.names.length ≤ id'.index ∧
      (id = id' ↔ p.push i = q.push j ∨ bare (p.push i) ∧ bare (q.push j))

variable {set : RuleSet} {a : Assembly set} {x : Lexicon}

theorem standsFor_eq (made : set.assembly = .ok a) : set.StandsFor = set.Numbers a.met := by
  funext id place
  rw [StandsFor, source_of_assembly made,
    (assembly_numbered made).source_eq (assembly_invariant made)]
  rfl

theorem name_state (loaded : set.load.2 = .ok x) (id : StateId) :
    (x.state id).name = set.names[id.index]? := by
  obtain ⟨a, start, made, _, rfl⟩ := load_eq_ok_iff.mp loaded
  have names := congrArg (fun names => names[id.index]?.join) (assembly_numbered made).names
  simp only [List.getElem?_map, Array.getElem?_toList] at names
  have read : (Lexicon.state ⟨a.states, set.names, ⟨start⟩, a.patterns⟩ id).name =
      (a.states[id.index]?.map Lexicon.State.name).join := by
    rw [Lexicon.state]
    cases a.states[id.index]? <;> rfl
  rw [read, names]
  by_cases bound : id.index < set.names.length
  · rw [List.getElem?_append_left (by simpa using bound), List.getElem?_map,
      List.getElem?_eq_getElem bound]
    rfl
  · rw [List.getElem?_append_right (by simpa using bound), List.getElem?_replicate,
      List.getElem?_eq_none (Nat.not_lt.mp bound)]
    split <;> rfl

theorem load_eq (loaded : set.load.2 = .ok x) (made : set.assembly = .ok a) :
    ∃ start, x = ⟨a.states, set.names, ⟨start⟩, a.patterns⟩ := by
  obtain ⟨a', start, made', _, same⟩ := load_eq_ok_iff.mp loaded
  obtain rfl := Except.ok.inj (made.symm.trans made')
  exact ⟨start, same⟩

theorem says_of_compiled (loaded : set.load.2 = .ok x) (made : set.assembly = .ok a)
    {entry : Located set} {rule : Lexicon.Rule} (compiled : CompiledFrom a entry rule) :
    set.Says x a.met (entry.place, entry.index, entry.rule) rule := by
  obtain ⟨start, rfl⟩ := load_eq loaded made
  have move := move_of_leads made compiled.leads
  rw [standsFor_eq made] at move
  exact ⟨compiled.token, compiled.regex, compiled.compiles, compiled.slot, move⟩

theorem state_of_numbers (loaded : set.load.2 = .ok x) (made : set.assembly = .ok a) {id : StateId}
    {place : Place} (numbers : set.Numbers a.met id place) :
    ∃ e : Expansion set, (set.keyAt place).Expands set e ∧
      (x.state id).defaultToken = e.defaultToken ∧
      List.Forall₂ (CompiledFrom a) e.rules (x.state id).rules.toList := by
  rw [← standsFor_eq made] at numbers
  obtain ⟨a', e, made', filled⟩ := state_of_source loaded numbers
  obtain rfl := Except.ok.inj (made.symm.trans made')
  exact ⟨e, filled⟩

theorem layout_filled (loaded : set.load.2 = .ok x) (made : set.assembly = .ok a) {id : StateId}
    {place : Place} (numbers : set.Numbers a.met id place) :
    (x.state id).defaultToken =
        (ownDefault (set.entriesAt place)).or (set.includedDefault [] (set.entriesAt place)) ∧
      List.Forall₂ (set.Says x a.met) (set.spliced place) (x.state id).rules.toList := by
  obtain ⟨e, expands, default, compiled⟩ := state_of_numbers loaded made numbers
  rw [ownDefault_of_expands (expands_keyAt expands),
    includedDefault_of_expands (expands_keyAt expands) (away_nil set _), spliced_of_keyAt expands,
    List.forall₂_map_left_iff]
  exact ⟨default, compiled.imp (fun _ _ compiled => says_of_compiled loaded made compiled)⟩

theorem compiled_of_standsAt (loaded : set.load.2 = .ok x) (made : set.assembly = .ok a)
    {place : Place} {index : Nat} {rule : Rule} {given : Lexicon.Rule}
    (stands : set.StandsAt x a.met (place, index, rule) given) :
    ∃ entry : Located set, entry.place = place ∧ entry.index = index ∧ entry.rule = rule ∧
      CompiledFrom a entry given := by
  obtain ⟨id, around, i, numbers, here, there⟩ := stands
  obtain ⟨e, expands, _, compiled⟩ := state_of_numbers loaded made numbers
  rw [spliced_of_keyAt expands, List.getElem?_map] at here
  obtain ⟨entry, at_, same⟩ := Option.map_eq_some_iff.mp here
  obtain ⟨rfl, rfl, rfl⟩ : entry.place = place ∧ entry.index = index ∧ entry.rule = rule := by
    simpa using same
  obtain ⟨bound, rfl⟩ := List.getElem?_eq_some_iff.mp at_
  obtain ⟨bound', rfl⟩ := Array.getElem?_eq_some_iff.mp there
  exact ⟨_, rfl, rfl, rfl, compiled.get bound (by simpa using bound')⟩

theorem layout_pushes (loaded : set.load.2 = .ok x) (made : set.assembly = .ok a) {p : Place} {i : Nat}
    {rule : Rule} {given : Lexicon.Rule} (stands : set.StandsAt x a.met (p, i, rule) given)
    (pushes : rule.pushed?.isSome) : set.listAt? (p.push i) = rule.pushed? := by
  obtain ⟨entry, rfl, rfl, rfl, _⟩ := compiled_of_standsAt loaded made stands
  obtain ⟨entries, pushed⟩ := Option.isSome_iff_exists.mp pushes
  rw [Loading.listAt?_pushed entry pushed, pushed]

theorem layout_shared (loaded : set.load.2 = .ok x) (made : set.assembly = .ok a)
    {p q : Place} {i j : Nat} {rule other : Rule} {given given' : Lexicon.Rule}
    (first : set.StandsAt x a.met (p, i, rule) given)
    (second : set.StandsAt x a.met (q, j, other) given') (pushes : rule.pushed?.isSome)
    (pushes' : other.pushed?.isSome) :
    ∃ id id', given.transition = .push id ∧ given'.transition = .push id' ∧
      set.names.length ≤ id.index ∧ set.names.length ≤ id'.index ∧
      (id = id' ↔ p.push i = q.push j ∨ !set.hasRoom (p.push i) ∧ !set.hasRoom (q.push j)) := by
  have inv := assembly_invariant made
  obtain ⟨entry, rfl, rfl, rfl, compiled⟩ := compiled_of_standsAt loaded made first
  obtain ⟨entry', rfl, rfl, rfl, compiled'⟩ := compiled_of_standsAt loaded made second
  obtain ⟨entries, pushed⟩ := Option.isSome_iff_exists.mp pushes
  obtain ⟨entries', pushed'⟩ := Option.isSome_iff_exists.mp pushes'
  obtain ⟨id, leads, opened⟩ := compiled.leads.list_number (Loading.pushed?_eq_some.mp pushed)
  obtain ⟨id', leads', opened'⟩ := compiled'.leads.list_number (Loading.pushed?_eq_some.mp pushed')
  have keys := keyAt_eq_iff (mem_pushPlaces (Loading.listAt?_pushed entry pushed))
    (mem_pushPlaces (Loading.listAt?_pushed entry' pushed'))
  simp only [Bool.not_eq_true']
  refine ⟨id, id', leads, leads', inv.late _ _ (mem_of_lookup opened),
    inv.late _ _ (mem_of_lookup opened'), Iff.trans ?_ keys⟩
  constructor
  · rintro rfl
    exact Option.some.inj ((inv.source_opened opened).symm.trans (inv.source_opened opened'))
  · intro same
    exact Option.some.inj (opened.symm.trans (same ▸ opened'))

theorem stateCount_eq (loaded : set.load.2 = .ok x) (made : set.assembly = .ok a) :
    x.stateCount = set.names.length + a.met.length := by
  obtain ⟨start, rfl⟩ := load_eq loaded made
  rw [Assembly.met, List.length_reverse, List.length_map]
  exact (assembly_numbered made).size

theorem layout_numbered (loaded : set.load.2 = .ok x) (made : set.assembly = .ok a) {p : Place}
    (member : p ∈ set.pushPlaces) :
    ∃ id, set.names.length ≤ id.index ∧ id.index < x.stateCount ∧ set.Numbers a.met id p := by
  obtain ⟨i, at_⟩ := List.mem_iff_getElem?.mp ((assembly_invariant made).mem_met member)
  have bound := (List.getElem?_eq_some_iff.mp at_).1
  refine ⟨⟨set.names.length + i⟩, Nat.le_add_right _ _, ?_, ?_⟩
  · rw [stateCount_eq loaded made]
    exact Nat.add_lt_add_left bound _
  · rw [Numbers, List.getElem?_append_right (by simp), List.length_map, Nat.add_sub_cancel_left, at_]

theorem layout_taken (loaded : set.load.2 = .ok x) (made : set.assembly = .ok a) {id : StateId}
    (bound : id.index < x.stateCount) :
    ∃ place, (place.path = [] ∧ place.state ∈ set.names ∨ place ∈ set.pushPlaces) ∧
      set.Numbers a.met id place := by
  rw [stateCount_eq loaded made] at bound
  by_cases early : id.index < set.names.length
  · refine ⟨⟨set.names[id.index], []⟩, .inl ⟨rfl, List.getElem_mem early⟩, ?_⟩
    rw [Numbers, List.getElem?_append_left (by simpa using early), List.getElem?_map,
      List.getElem?_eq_getElem early]
    rfl
  · have inside : id.index - set.names.length < a.met.length := by omega
    obtain ⟨place, member, key⟩ :=
      (assembly_numbered made).written _ (List.getElem_mem inside)
    refine ⟨place, .inr member, ?_⟩
    rw [Numbers, List.getElem?_append_right (by simpa using early), List.length_map,
      List.getElem?_eq_getElem inside, key]

end

def blanks : RuleSet :=
  RuleSet.empty.withState "start"
    [(Rule.single "a" "a").withPush [], (Rule.single "b" "b").withPush []]

example : blanks.load.2.toOption.map Lexicon.stateCount = some 2 := by cbv

example : ((blanks.withRoom ⟨"start", [0]⟩).withRoom ⟨"start", [1]⟩).load.2.toOption.map
    Lexicon.stateCount = some 3 := by cbv

end RuleSet

end StackLexer
