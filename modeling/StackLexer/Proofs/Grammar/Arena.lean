import Mathlib.Data.List.Forall2
import StackLexer.Proofs.Grammar.Checking
import StackLexer.Proofs.Grammar.Compiling

/-! What the states of a lexicon were made from.
While lists are compiled, the state of each list that has been begun holds the rules made from the
first part of the list's expansion, and the agenda holds the rest of it. Opening a pushed list and
adding a rule both keep this, so at the end each state holds all the rules of its own list, and each
of these leads to the state of the list that its entry names. -/

namespace StackLexer

theorem exists_related {α β : Type} {related : α → β → Prop} {l : List α} {l' : List β}
    (all : List.Forall₂ related l l') {a : α} (member : a ∈ l) : ∃ b ∈ l', related a b := by
  induction all with
  | nil => simp at member
  | cons first _ ih =>
    rcases List.mem_cons.mp member with rfl | member
    · exact ⟨_, List.mem_cons_self, first⟩
    · obtain ⟨b, inside, holds⟩ := ih member
      exact ⟨b, List.mem_cons_of_mem _ inside, holds⟩

variable {set : RuleSet}

def PushKey.Expands (set : RuleSet) : PushKey → Expansion set → Prop
  | .emptyList, e => e = {}
  | .list place, e => set.ExpandsAt place e

namespace RuleSet

def entriesAt (set : RuleSet) (place : Place) : List Rule := (set.listAt? place).getD []

theorem keyAt_cases (set : RuleSet) (place : Place) :
    set.keyAt place = .list place ∨ set.keyAt place = .emptyList ∧ set.listAt? place = some [] := by
  unfold keyAt
  split
  · rename_i empty
    split
    · exact .inl rfl
    · exact .inr ⟨rfl, empty⟩
  · exact .inl rfl

theorem keyAt_of_ne_nil {place : Place} {rules : List Rule} (found : set.listAt? place = some rules)
    (some_ : rules ≠ []) : set.keyAt place = .list place := by
  rcases set.keyAt_cases place with key | ⟨_, empty⟩
  · exact key
  · exact absurd (Option.some.inj (found.symm.trans empty)) some_

theorem expands_keyAt {place : Place} {e : Expansion set} (expands : (set.keyAt place).Expands set e) :
    set.Expands place 0 (set.entriesAt place) e := by
  rcases set.keyAt_cases place with key | ⟨key, empty⟩
  · rw [key] at expands
    obtain ⟨rules, found, expands⟩ := expands
    rw [entriesAt, found]
    exact expands
  · rw [key] at expands
    obtain rfl : e = {} := expands
    rw [entriesAt, empty]
    exact .nil place 0

theorem keyAt_expands {place : Place} {e : Expansion set} (expands : set.ExpandsAt place e) :
    (set.keyAt place).Expands set e := by
  rcases set.keyAt_cases place with key | ⟨key, empty⟩
  · rw [key]
    exact expands
  · obtain ⟨rules, found, expands⟩ := expands
    obtain rfl := Option.some.inj (found.symm.trans empty)
    cases expands
    rw [key]
    rfl

end RuleSet

structure CompiledFrom [RegexEngine] (a : Assembly set) (entry : Located set) (rule : Lexicon.Rule) : Prop where
  token : entry.rule.token = some rule.tokens
  regex : entry.rule.regex = some rule.pattern.source
  compiles : Pattern.compile rule.pattern.source (entry.rule.caseInsensitive.getD false) =
    .ok rule.pattern
  groups : ∀ kinds, rule.tokens = .groups kinds →
    kinds ≠ [] ∧ kinds.length = rule.pattern.groupCount
  slot : a.patterns[rule.slot]? = some rule.pattern
  leads : Loading.LeadsTo a.opened entry rule.transition

theorem PushKey.Expands.plain {key : PushKey} {e : Expansion set} (expands : key.Expands set e) :
    ∀ entry ∈ e.rules, entry.rule.includes = none ∧ entry.rule.defaultToken = none := by
  cases key with
  | emptyList =>
    obtain rfl : e = {} := expands
    simp
  | list place =>
    obtain ⟨rules, _, expands⟩ := expands
    exact RuleSet.Expands.plain expands

namespace Assembly

structure Extend (a b : Assembly set) : Prop where
  opened : ∀ key id, a.opened.lookup key = some id → b.opened.lookup key = some id
  patterns : Patterns.Extend a.patterns b.patterns

theorem extend_addRule (a : Assembly set) (id : StateId) (rule : Lexicon.Rule)
    {patterns : Array Pattern} (extend : Patterns.Extend a.patterns patterns) :
    Extend a (a.addRule id rule patterns) := ⟨fun _ _ h => h, extend⟩

theorem extend_openList {a : Assembly set} {key : PushKey} (new : a.opened.lookup key = none)
    (reading : a.marks.Reading) : Extend a (a.openList key reading) := by
  refine ⟨fun other id found => ?_, fun _ _ h => h⟩
  have different : other ≠ key := by
    rintro rfl
    simp [new] at found
  simpa [openList, List.lookup_cons, beq_eq_false_iff_ne.mpr different] using found

end Assembly

theorem Loading.LeadsTo.extend {a b : Assembly set} (extend : a.Extend b) {entry : Located set}
    {t : Transition} (leads : Loading.LeadsTo a.opened entry t) :
    Loading.LeadsTo b.opened entry t := by
  cases leads with
  | stay next push => exact .stay next push
  | pop next push => exact .pop next push
  | goto next other push named => exact .goto next other push named
  | push next push named => exact .push next push named
  | list next push number => exact .list next push (extend.opened _ _ number)

theorem CompiledFrom.extend [RegexEngine] {a b : Assembly set} (extend : a.Extend b) {entry : Located set}
    {rule : Lexicon.Rule} (made : CompiledFrom a entry rule) : CompiledFrom b entry rule :=
  { made with
    slot := extend.patterns _ _ made.slot
    leads := made.leads.extend extend }

namespace Loading

def pending (agenda : List (StateId × Located set)) (id : StateId) : List (Located set) :=
  (agenda.filter (·.1 = id)).map Prod.snd

/-- A state holds the rules of the first part of a list, the rest of which is on the agenda. -/
def Filled [RegexEngine] (a : Assembly set) (agenda : List (StateId × Located set)) (key : PushKey)
    (id : StateId) : Prop :=
  ∃ (e : Expansion set) (state : Lexicon.State) (done : List (Located set)),
    key.Expands set e ∧ a.states[id.index]? = some state ∧ state.defaultToken = e.defaultToken ∧
      e.rules = done ++ pending agenda id ∧ List.Forall₂ (CompiledFrom a) done state.rules.toList

/-- What holds while the rules of an agenda are compiled. `begun` are the lists of named states
that have been begun, with their numbers. -/
structure Invariant [RegexEngine] (begun : List (PushKey × StateId)) (a : Assembly set)
    (agenda : List (StateId × Located set)) : Prop where
  filled : ∀ key id, (key, id) ∈ begun ++ a.opened → Filled a agenda key id
  due : ∀ id entry, (id, entry) ∈ agenda → id.index < a.states.size ∧
    entry.rule.includes = none ∧ entry.rule.defaultToken = none
  right : Patterns.Right a.patterns
  sound : a.marks.Sound []
  named : set.names.length ≤ a.states.size
  late : ∀ key id, (key, id) ∈ a.opened → set.names.length ≤ id.index
  distinct : (a.opened.map Prod.snd).Nodup

@[simp] theorem pending_nil (id : StateId) : pending ([] : List (StateId × Located set)) id = [] :=
  rfl

theorem pending_append (first second : List (StateId × Located set)) (id : StateId) :
    pending (first ++ second) id = pending first id ++ pending second id := by
  simp [pending]

theorem pending_cons (agenda : List (StateId × Located set)) (id other : StateId)
    (entry : Located set) :
    pending ((id, entry) :: agenda) other =
      if id = other then entry :: pending agenda other else pending agenda other := by
  by_cases same : id = other <;> simp [pending, same]

theorem pending_map (rules : List (Located set)) (id other : StateId) :
    pending (rules.map (fun r => (id, r))) other = if id = other then rules else [] := by
  by_cases same : id = other <;> simp [pending, same, List.filter_map, Function.comp_def]

theorem Filled.bound [RegexEngine] {a : Assembly set} {agenda : List (StateId × Located set)} {key : PushKey}
    {id : StateId} (filled : Filled a agenda key id) : id.index < a.states.size := by
  obtain ⟨_, _, _, _, state, _⟩ := filled
  exact (Array.getElem?_eq_some_iff.mp state).1

theorem index_ne {id other : StateId} (different : id ≠ other) : id.index ≠ other.index := by
  intro same
  cases id
  cases other
  exact different (congrArg StateId.mk same)

variable {begun : List (PushKey × StateId)} {a : Assembly set}
  {rest : List (StateId × Located set)} {id : StateId} {entry : Located set}

theorem Invariant.addRule [RegexEngine] (inv : Invariant begun a ((id, entry) :: rest)) {rule : Lexicon.Rule}
    {patterns : Array Pattern} (extend : Patterns.Extend a.patterns patterns)
    (right : Patterns.Right patterns)
    (made : CompiledFrom (a.addRule id rule patterns) entry rule) :
    Invariant begun (a.addRule id rule patterns) rest := by
  have extends_ := a.extend_addRule id rule extend
  refine ⟨?_, ?_, right, inv.sound, ?_, inv.late, inv.distinct⟩
  · intro key other member
    obtain ⟨e, state, done, expands, found, default, split, compiled⟩ := inv.filled key other member
    have compiled := compiled.imp (fun _ _ made => made.extend extends_)
    rw [pending_cons] at split
    by_cases same : id = other
    · subst same
      rw [if_pos rfl] at split
      refine ⟨e, { state with rules := state.rules.push rule }, done ++ [entry], expands, ?_, default,
        by simpa using split, ?_⟩
      · simp [Assembly.addRule, Array.getElem?_modify, found]
      · rw [Array.toList_push]
        exact List.rel_append compiled (.cons made .nil)
    · rw [if_neg same] at split
      refine ⟨e, state, done, expands, ?_, default, split, compiled⟩
      simp [Assembly.addRule, Array.getElem?_modify, index_ne same, found]
  · intro other entry' member
    simpa [Assembly.addRule] using inv.due other entry' (List.mem_cons_of_mem _ member)
  · simpa [Assembly.addRule] using inv.named

theorem nextId_ne {other : StateId} (bound : other.index < a.states.size) : a.nextId ≠ other := by
  rintro rfl
  exact Nat.lt_irrefl _ bound

theorem Invariant.pending_nextId [RegexEngine] {agenda : List (StateId × Located set)}
    (inv : Invariant begun a agenda) : pending agenda a.nextId = [] := by
  simp only [pending, List.map_eq_nil_iff, List.filter_eq_nil_iff]
  rintro ⟨other, entry⟩ due same
  have same : other = a.nextId := by simpa using same
  exact nextId_ne (inv.due other entry due).1 same.symm

theorem Invariant.pending_opened [RegexEngine] (inv : Invariant begun a ((id, entry) :: rest))
    (rules : List (Located set)) (other : StateId) :
    pending ((id, entry) :: (rules.map (fun r => (a.nextId, r)) ++ rest)) other =
      (if a.nextId = other then rules else []) ++ pending ((id, entry) :: rest) other := by
  rw [pending_cons, pending_append, pending_map, pending_cons]
  by_cases same : id = other
  · subst same
    have bound := (inv.due id entry List.mem_cons_self).1
    simp [nextId_ne bound]
  · simp [same]

theorem Invariant.openList [RegexEngine] (inv : Invariant begun a ((id, entry) :: rest)) {key : PushKey}
    {reading : a.marks.Reading} (new : a.opened.lookup key = none)
    (expands : key.Expands set reading.expansion) (sound : reading.marks.Sound []) :
    Invariant begun (a.openList key reading)
      ((id, entry) :: (reading.expansion.rules.map (fun r => (a.nextId, r)) ++ rest)) := by
  have extends_ := Assembly.extend_openList new reading
  have size : (a.openList key reading).states.size = a.states.size + 1 := Array.size_push _
  refine ⟨?_, ?_, inv.right, sound, size ▸ Nat.le_succ_of_le inv.named, ?_, ?_⟩
  · intro key' other member
    have origin : (key', other) = (key, a.nextId) ∨ (key', other) ∈ begun ++ a.opened := by
      simp only [Assembly.openList, List.mem_append, List.mem_cons] at member ⊢
      tauto
    rcases origin with new | before
    · obtain ⟨rfl, rfl⟩ := Prod.mk.inj new
      refine ⟨reading.expansion, { defaultToken := reading.expansion.defaultToken }, [], expands, ?_, rfl, ?_, .nil⟩
      · simp [Assembly.openList, Assembly.nextId]
      · rw [inv.pending_opened, if_pos rfl, inv.pending_nextId, List.append_nil, List.nil_append]
    · have filled := inv.filled key' other before
      have different := nextId_ne filled.bound
      obtain ⟨e', state, done, expands', found, default, split, compiled⟩ := filled
      refine ⟨e', state, done, expands', ?_, default, ?_,
        compiled.imp (fun _ _ made => made.extend extends_)⟩
      · obtain ⟨bound, _⟩ := Array.getElem?_eq_some_iff.mp found
        rw [← found, Assembly.openList, Array.getElem?_push_lt bound,
          Array.getElem?_eq_getElem bound]
      · rw [inv.pending_opened, if_neg different, List.nil_append, split]
  · intro other entry' member
    rw [size]
    rcases List.mem_cons.mp member with same | member
    · obtain ⟨rfl, rfl⟩ := Prod.mk.inj same
      obtain ⟨bound, plain⟩ := inv.due _ _ List.mem_cons_self
      exact ⟨Nat.lt_succ_of_lt bound, plain⟩
    · rcases List.mem_append.mp member with opened | member
      · obtain ⟨r, inside, same⟩ := List.mem_map.mp opened
        obtain ⟨rfl, rfl⟩ := Prod.mk.inj same
        exact ⟨Nat.lt_succ_self _, expands.plain r inside⟩
      · obtain ⟨bound, plain⟩ := inv.due other entry' (List.mem_cons_of_mem _ member)
        exact ⟨Nat.lt_succ_of_lt bound, plain⟩
  · intro key' other member
    rcases List.mem_cons.mp member with same | member
    · obtain ⟨rfl, rfl⟩ := Prod.mk.inj same
      exact inv.named
    · exact inv.late key' other member
  · refine List.nodup_cons.mpr ⟨?_, inv.distinct⟩
    intro member
    obtain ⟨⟨key', other⟩, inside, same⟩ := List.mem_map.mp member
    exact nextId_ne (inv.filled key' other (List.mem_append_right _ inside)).bound same.symm

theorem Passed.made [RegexEngine] {c : Checked entry} (passed : Passed a.patterns entry c) (id : StateId)
    {t : Transition} (leads : LeadsTo a.opened entry t) :
    CompiledFrom (a.addRule id (c.rule t) c.patterns) entry (c.rule t) :=
  ⟨passed.token, passed.regex, passed.compiles, passed.groups, passed.slot, leads⟩

def Keeps (a : Assembly set) (agenda : List (StateId × Located set)) (b : Assembly set) : Prop :=
  a.states.size ≤ b.states.size ∧ ∀ j < a.states.size,
    (∀ id entry, (id, entry) ∈ agenda → id.index ≠ j) → b.states[j]? = a.states[j]?

theorem Keeps.addRule {rule : Lexicon.Rule} {patterns : Array Pattern} {b : Assembly set}
    (keeps : Keeps (a.addRule id rule patterns) rest b) : Keeps a ((id, entry) :: rest) b := by
  obtain ⟨size, same⟩ := keeps
  simp only [Assembly.addRule, Array.size_modify] at size same
  refine ⟨size, fun j bound others => ?_⟩
  rw [same j bound (fun id' entry' member => others id' entry' (List.mem_cons_of_mem _ member)),
    Array.getElem?_modify, if_neg (others id entry List.mem_cons_self)]

theorem Keeps.openList {key : PushKey} {reading : a.marks.Reading}
    {rules : List (Located set)} {b : Assembly set}
    (keeps : Keeps (a.openList key reading)
      ((id, entry) :: (rules.map (fun r => (a.nextId, r)) ++ rest)) b) :
    Keeps a ((id, entry) :: rest) b := by
  obtain ⟨size, same⟩ := keeps
  simp only [Assembly.openList, Array.size_push] at size same
  refine ⟨Nat.le_of_succ_le size, fun j bound others => ?_⟩
  rw [same j (Nat.lt_succ_of_lt bound), Array.getElem?_push_lt bound,
    Array.getElem?_eq_getElem bound]
  intro id' entry' member
  rcases List.mem_cons.mp member with same | member
  · exact others id' entry' (same ▸ List.mem_cons_self)
  · rcases List.mem_append.mp member with opened | member
    · obtain ⟨r, _, same⟩ := List.mem_map.mp opened
      obtain ⟨rfl, rfl⟩ := Prod.mk.inj same
      exact (Nat.ne_of_lt bound).symm
    · exact others id' entry' (List.mem_cons_of_mem _ member)

section step

variable [RegexEngine] {c : Checked entry}

theorem Invariant.known (inv : Invariant begun a ((id, entry) :: rest))
    (checked : check a.patterns entry = .ok c) {t : Transition} (leads : c.target = .known t) :
    Invariant begun (a.addRule id (c.rule t) c.patterns) rest := by
  have passed := check_passed inv.right checked
  have made := passed.made id (passed.known t leads a.opened)
  exact inv.addRule passed.extend passed.right made

theorem Invariant.read_expands (inv : Invariant begun a ((id, entry) :: rest))
    {entries : List Rule} (pushed : entry.rule.pushed? = some entries) {reading : a.marks.Reading}
    (read : (a.marks.readFrom (entry.place.push entry.index) 0 entries
      (written_pushed entry pushed)).2 = .ok reading) :
    (set.keyAt (entry.place.push entry.index)).Expands set reading.expansion :=
  RuleSet.keyAt_expands
    ⟨entries, listAt?_pushed entry pushed, (Marks.readFrom_expands inv.sound read).1⟩

variable {entries : List Rule} {pushed : entry.rule.pushed? = some entries}

theorem Invariant.met (inv : Invariant begun a ((id, entry) :: rest))
    (checked : check a.patterns entry = .ok c) (leads : c.target = .list entries pushed)
    {target : StateId}
    (number : a.opened.lookup (set.keyAt (entry.place.push entry.index)) = some target) :
    Invariant begun (a.addRule id (c.rule (.push target)) c.patterns) rest := by
  have passed := check_passed inv.right checked
  have next := passed.list entries pushed leads
  have made := passed.made id (.list next (pushed?_eq_some.mp pushed) number)
  exact inv.addRule passed.extend passed.right made

theorem Invariant.opens (inv : Invariant begun a ((id, entry) :: rest))
    (checked : check a.patterns entry = .ok c) (leads : c.target = .list entries pushed)
    (new : a.opened.lookup (set.keyAt (entry.place.push entry.index)) = none)
    {reading : a.marks.Reading}
    (read : (a.marks.readFrom (entry.place.push entry.index) 0 entries
      (written_pushed entry pushed)).2 = .ok reading) :
    Invariant begun
      ((a.openList (set.keyAt (entry.place.push entry.index)) reading).addRule id
        (c.rule (.push a.nextId)) c.patterns)
      (reading.expansion.rules.map (fun r => (a.nextId, r)) ++ rest) := by
  have passed := check_passed inv.right checked
  have opened := inv.openList new (inv.read_expands pushed read) (Marks.readFrom_expands inv.sound read).2
  have next := passed.list entries pushed leads
  have number : (a.openList (set.keyAt (entry.place.push entry.index)) reading).opened.lookup
      (set.keyAt (entry.place.push entry.index)) = some a.nextId := by
    simp [Assembly.openList]
  have made := Passed.made (a := a.openList (set.keyAt (entry.place.push entry.index)) reading)
    passed id (.list next (pushed?_eq_some.mp pushed) number)
  exact opened.addRule passed.extend passed.right made

end step

/-- Compiling an agenda fills the states it is for, with those of the lists that are opened, and
leaves the others as they are. -/
theorem compiles_invariant [RegexEngine] {agenda : List (StateId × Located set)} {b : Assembly set}
    (inv : Invariant begun a agenda) (h : Compiles a agenda (.ok b)) :
    Invariant begun b [] ∧ Keeps a agenda b := by
  generalize outcome : Except.ok b = result at h
  induction h with
  | done a =>
    obtain rfl := Except.ok.inj outcome
    exact ⟨inv, Nat.le_refl _, fun _ _ _ => rfl⟩
  | refused | unread => simp at outcome
  | known checked leads _ ih =>
    obtain ⟨inv, keeps⟩ := ih (inv.known checked leads) outcome
    exact ⟨inv, keeps.addRule⟩
  | met checked leads number _ ih =>
    obtain ⟨inv, keeps⟩ := ih (inv.met checked leads number) outcome
    exact ⟨inv, keeps.addRule⟩
  | opens checked leads new read _ ih =>
    obtain ⟨inv, keeps⟩ := ih (inv.opens checked leads new read) outcome
    exact ⟨inv, keeps.addRule.openList⟩

def namedLists (names : List String) : List (PushKey × StateId) :=
  names.zipIdx.map (fun (name, i) => (.list ⟨name, []⟩, ⟨i⟩))

theorem namedLists_append (names : List String) (name : String) :
    namedLists (names ++ [name]) = namedLists names ++ [(.list ⟨name, []⟩, ⟨names.length⟩)] := by
  simp [namedLists, List.zipIdx_append]

theorem mem_namedLists {names : List String} {key : PushKey} {id : StateId} :
    (key, id) ∈ namedLists names ↔
      ∃ name, names[id.index]? = some name ∧ key = .list ⟨name, []⟩ := by
  obtain ⟨index⟩ := id
  simp only [namedLists, List.mem_map, Prod.exists, Prod.mk.injEq, StateId.mk.injEq,
    List.mem_zipIdx_iff_getElem?]
  constructor
  · rintro ⟨name, i, found, rfl, rfl⟩
    exact ⟨name, found, rfl⟩
  · rintro ⟨name, found, rfl⟩
    exact ⟨name, index, found, rfl, rfl⟩

section named

variable [RegexEngine]

theorem Invariant.begin (inv : Invariant begun a []) {key : PushKey} {reading : a.marks.Reading}
    {name : Option String} (blank : a.states[id.index]? = some { name })
    (fresh : ∀ key' other, (key', other) ∈ begun ++ a.opened → other ≠ id)
    (expands : key.Expands set reading.expansion) (sound : reading.marks.Sound []) :
    Invariant (begun ++ [(key, id)]) (a.beginState id reading)
      (reading.expansion.rules.map (fun r => (id, r))) := by
  have bound := (Array.getElem?_eq_some_iff.mp blank).1
  have extends_ : a.Extend (a.beginState id reading) := ⟨fun _ _ h => h, fun _ _ h => h⟩
  refine ⟨?_, ?_, inv.right, sound, ?_, inv.late, inv.distinct⟩
  · intro key' other member
    have origin : (key', other) = (key, id) ∨ (key', other) ∈ begun ++ a.opened := by
      simp only [Assembly.beginState, List.mem_append, List.mem_singleton] at member ⊢
      tauto
    rcases origin with new | before
    · obtain ⟨rfl, rfl⟩ := Prod.mk.inj new
      refine ⟨reading.expansion, { name, defaultToken := reading.expansion.defaultToken }, [], expands,
        ?_, rfl, ?_, .nil⟩
      · simp [Assembly.beginState, Array.getElem?_modify, blank]
      · rw [pending_map, if_pos rfl, List.nil_append]
    · have different := (fresh key' other before).symm
      obtain ⟨e', state, done, expands', found, default, split, compiled⟩ :=
        inv.filled key' other before
      refine ⟨e', state, done, expands', ?_, default, ?_,
        compiled.imp (fun _ _ made => made.extend extends_)⟩
      · simp [Assembly.beginState, Array.getElem?_modify, index_ne different, found]
      · rw [pending_map, if_neg different]
        exact split
  · intro other entry' member
    obtain ⟨r, inside, same⟩ := List.mem_map.mp member
    obtain ⟨rfl, rfl⟩ := Prod.mk.inj same
    simpa [Assembly.beginState] using ⟨bound, expands.plain r inside⟩
  · simpa [Assembly.beginState] using inv.named

structure Halfway (a : Assembly set) (done names : List String) : Prop where
  all : set.names = done ++ names
  invariant : Invariant (namedLists done) a []
  blank : ∀ j name, names[j]? = some name →
    a.states[done.length + j]? = some { name := some name }

variable {done names : List String} {name : String} {reading : a.marks.Reading}

theorem Halfway.read_expands (half : Halfway a done (name :: names))
    (read : (a.marks.readState ⟨name, []⟩ name).2 = .ok reading) :
    PushKey.Expands set (.list ⟨name, []⟩) reading.expansion :=
  (Marks.readState_expands half.invariant.sound read).1

theorem Halfway.begin (half : Halfway a done (name :: names))
    (read : (a.marks.readState ⟨name, []⟩ name).2 = .ok reading) :
    Invariant (namedLists (done ++ [name])) (a.beginState ⟨done.length⟩ reading)
      (reading.expansion.rules.map (fun r => (⟨done.length⟩, r))) := by
  have first := half.blank 0 name rfl
  rw [Nat.add_zero] at first
  have fresh : ∀ key other, (key, other) ∈ namedLists done ++ a.opened →
      other ≠ ⟨done.length⟩ := by
    rintro key other member rfl
    rcases List.mem_append.mp member with member | member
    · obtain ⟨_, found, _⟩ := mem_namedLists.mp member
      simp at found
    · have late : set.names.length ≤ done.length := half.invariant.late key _ member
      rw [half.all, List.length_append, List.length_cons] at late
      omega
  rw [namedLists_append]
  exact half.invariant.begin first fresh (half.read_expands read)
    (Marks.readState_expands half.invariant.sound read).2

theorem Halfway.next (half : Halfway a done (name :: names))
    (read : (a.marks.readState ⟨name, []⟩ name).2 = .ok reading) {b : Assembly set}
    (compiled : Compiles (a.beginState ⟨done.length⟩ reading)
      (reading.expansion.rules.map (fun r => (⟨done.length⟩, r))) (.ok b)) :
    Halfway b (done ++ [name]) names := by
  obtain ⟨invariant, _, kept⟩ := compiles_invariant (half.begin read) compiled
  refine ⟨by simp [half.all], invariant, fun j other found => ?_⟩
  have before := half.blank (j + 1) other found
  have place : (done ++ [name]).length + j = done.length + (j + 1) := by
    simp [Nat.add_comm, Nat.add_left_comm]
  obtain ⟨bound, _⟩ := Array.getElem?_eq_some_iff.mp before
  rw [place, kept _ (by simpa [Assembly.beginState] using bound)]
  · simpa [Assembly.beginState, Array.getElem?_modify] using before
  · intro id entry member
    obtain ⟨r, _, same⟩ := List.mem_map.mp member
    obtain ⟨rfl, rfl⟩ := Prod.mk.inj same
    simp

theorem builds_invariant {index : Nat} {b : Assembly set} (half : Halfway a done names)
    (number : index = done.length) (h : Builds a index names (.ok b)) :
    Invariant (namedLists set.names) b [] := by
  generalize outcome : Except.ok b = result at h
  induction h generalizing done with
  | done a index =>
    obtain rfl := Except.ok.inj outcome
    rw [half.all, List.append_nil]
    exact half.invariant
  | unread | refused => simp at outcome
  | next read compiled _ ih =>
    subst number
    exact ih (half.next read compiled) (by simp) outcome

end named

end Loading

namespace RuleSet

variable [RegexEngine]

def assembly (set : RuleSet) : Except LoadError (Assembly set) :=
  (Loading.compileStates set.blank 0 set.names).2

theorem assembly_builds (set : RuleSet) : Loading.Builds set.blank 0 set.names set.assembly :=
  Loading.compileStates_builds set.blank 0 set.names

theorem halfway_blank (set : RuleSet) : Loading.Halfway set.blank [] set.names := by
  refine ⟨rfl, ⟨?_, ?_, ?_, Marks.sound_nothing set, ?_, ?_, .nil⟩, ?_⟩
  · intro key id member
    simp [blank, Loading.namedLists] at member
  · intro id entry member
    simp at member
  · intro p member
    simp [blank] at member
  · simp [blank]
  · intro key id member
    simp [blank] at member
  · intro j name found
    simp [blank, found]

theorem assembly_invariant {a : Assembly set} (h : set.assembly = .ok a) :
    Loading.Invariant (Loading.namedLists set.names) a [] :=
  Loading.builds_invariant set.halfway_blank rfl (h ▸ set.assembly_builds)

theorem load_eq_ok_iff {x : Lexicon} :
    set.load.2 = .ok x ↔ ∃ a start, set.assembly = .ok a ∧ set.names.idxOf? startName = some start ∧
      x = { states := a.states, names := set.names, start := ⟨start⟩, patterns := a.patterns } := by
  unfold load loading assembly
  cases set.names.idxOf? startName with
  | none => simp
  | some start =>
    obtain ⟨deeds, fault | a⟩ := Loading.compileStates set.blank 0 set.names
    · simp
    · simp [eq_comm]

end RuleSet

end StackLexer
