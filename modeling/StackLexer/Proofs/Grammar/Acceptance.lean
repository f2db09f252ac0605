import Mathlib.Data.List.Induction
import StackLexer.Proofs.Grammar.Arena

/-! Exactly the well-formed rule sets are loaded.
A list that is written somewhere is empty or has a state of its own, since the entry that pushes it
is a rule of the state of the list around it. So nothing that is written escapes the checks, and in a
well-formed rule set each check succeeds. -/

namespace StackLexer

variable {set : RuleSet}

theorem Rule.listAt?_concat {rules entries : List Rule} {path : List Nat} {i : Nat}
    (h : Rule.listAt? rules (path ++ [i]) = some entries) :
    ∃ around rule, Rule.listAt? rules path = some around ∧ around[i]? = some rule ∧
      rule.pushed? = some entries := by
  induction path generalizing rules with
  | nil =>
    simp only [List.nil_append, Rule.listAt?] at h
    split at h
    · rename_i found leads
      obtain ⟨rule, at_, pushed⟩ := Option.bind_eq_some_iff.mp leads
      obtain rfl := Option.some.inj h
      exact ⟨rules, rule, rfl, at_, pushed⟩
    · simp at h
  | cons j path ih =>
    simp only [List.cons_append, Rule.listAt?] at h ⊢
    split at h
    · exact ih h
    · simp at h

theorem RuleSet.listAt?_push_inv {place : Place} {i : Nat} {entries : List Rule}
    (h : set.listAt? (place.push i) = some entries) :
    ∃ around rule, set.listAt? place = some around ∧ around[i]? = some rule ∧
      rule.pushed? = some entries := by
  obtain ⟨rules, found, h⟩ := Option.bind_eq_some_iff.mp h
  obtain ⟨around, rule, inside, at_, pushed⟩ := Rule.listAt?_concat h
  exact ⟨around, rule, Option.bind_eq_some_iff.mpr ⟨rules, found, inside⟩, at_, pushed⟩

theorem Place.induction {holds : Place → Prop} (state : ∀ name, holds ⟨name, []⟩)
    (push : ∀ place i, holds place → holds (place.push i)) (place : Place) : holds place := by
  obtain ⟨name, path⟩ := place
  induction path using List.reverseRecOn with
  | nil => exact state name
  | append_singleton path i ih => exact push ⟨name, path⟩ i ih

theorem PushKey.Expands.unique {key : PushKey} {e e' : Expansion set} (first : key.Expands set e)
    (second : key.Expands set e') : e = e' := by
  cases key with
  | emptyList =>
    obtain rfl : e = {} := first
    exact Eq.symm second
  | list place => exact RuleSet.ExpandsAt.unique first second

theorem Loading.LeadsTo.single {opened : List (PushKey × StateId)} {entry : Located set}
    {t : Transition} (leads : Loading.LeadsTo opened entry t) :
    entry.rule.next = none ∨ entry.rule.push = none := by
  cases leads with
  | stay next => exact .inl next
  | pop _ push => exact .inr push
  | goto _ _ push => exact .inr push
  | push next => exact .inl next
  | list next => exact .inl next

theorem Loading.LeadsTo.known {opened : List (PushKey × StateId)} {entry : Located set}
    {t : Transition} (leads : Loading.LeadsTo opened entry t) :
    (∀ name, entry.rule.next = some name → name = RuleSet.popName ∨ name ∈ set.names) ∧
      ∀ name, entry.rule.push = some (.state name) → name ∈ set.names := by
  have known {name : String} {i : Nat} (h : set.names.idxOf? name = some i) : name ∈ set.names :=
    List.isSome_idxOf?.mp (h ▸ rfl)
  cases leads with
  | stay next push => simp [next, push]
  | pop next push => simp [next, push]
  | goto next _ push named => simpa [next, push] using .inr (known named)
  | push next push named => simpa [next, push] using known named
  | list next push => simp [next, push]

theorem Loading.LeadsTo.list_number {opened : List (PushKey × StateId)} {entry : Located set}
    {t : Transition} (leads : Loading.LeadsTo opened entry t) {entries : List Rule}
    (pushed : entry.rule.push = some (.rules entries)) :
    ∃ id, t = .push id ∧ opened.lookup (set.keyAt (entry.place.push entry.index)) = some id := by
  cases leads with
  | stay _ push | pop _ push | goto _ _ push | push _ push => simp [push] at pushed
  | list _ push number =>
    rw [pushed] at push
    cases push
    exact ⟨_, rfl, number⟩

theorem CompiledFrom.wellFormed [RegexEngine] {a : Assembly set} {entry : Located set} {rule : Lexicon.Rule}
    (made : CompiledFrom a entry rule) (plain : entry.rule.includes = none)
    (noDefault : entry.rule.defaultToken = none) : entry.rule.WellFormed set :=
  .matching plain noDefault made.token made.regex made.leads.single made.compiles made.groups
    made.leads.known.1 made.leads.known.2

namespace Loading

variable [RegexEngine] {begun : List (PushKey × StateId)} {a : Assembly set}

theorem Invariant.made (inv : Invariant begun a []) {key : PushKey} {id : StateId}
    (member : (key, id) ∈ begun ++ a.opened) {e : Expansion set} (expands : key.Expands set e) :
    ∀ entry ∈ e.rules, ∃ rule, CompiledFrom a entry rule := by
  obtain ⟨e', state, done, expands', _, _, split, compiled⟩ := inv.filled key id member
  obtain rfl := expands.unique expands'
  rw [pending_nil, List.append_nil] at split
  intro entry inside
  obtain ⟨rule, _, made⟩ := exists_related compiled (split ▸ inside)
  exact ⟨rule, made⟩

theorem Invariant.pushed_opened (inv : Invariant (namedLists set.names) a []) {place : Place}
    {id : StateId} (member : (.list place, id) ∈ namedLists set.names ++ a.opened)
    {around : List Rule} (found : set.listAt? place = some around) {i : Nat} {rule : Rule}
    (inside : around[i]? = some rule) {entries : List Rule} (pushed : rule.pushed? = some entries) :
    ∃ other, (set.keyAt (place.push i), other) ∈ a.opened := by
  obtain ⟨e, _, _, expands, _⟩ := inv.filled _ id member
  have made := inv.made member expands
  obtain ⟨around', found', expands⟩ := expands
  obtain rfl := Option.some.inj (found.symm.trans found')
  have push := pushed?_eq_some.mp pushed
  -- The entry is neither an include nor a default token, since these push nothing.
  rcases expands.entry inside with said | said | said
  · obtain ⟨_, _, alone, _⟩ := said
    simp [Rule.includesMore, push] at alone
  · obtain ⟨_, _, _, alone⟩ := said
    simp [Rule.defaultsMore, push] at alone
  · obtain ⟨entry, present, here, number, same⟩ := said
    obtain ⟨rule', made⟩ := made entry present
    obtain ⟨other, _, opened⟩ := made.leads.list_number (same ▸ push)
    rw [Nat.zero_add] at number
    rw [here, number] at opened
    exact ⟨other, mem_of_lookup opened⟩

theorem Invariant.listed (inv : Invariant (namedLists set.names) a []) (place : Place) :
    ∀ rules, set.listAt? place = some rules → rules ≠ [] →
      ∃ id, (.list place, id) ∈ namedLists set.names ++ a.opened := by
  induction place using Place.induction with
  | state name =>
    intro rules found _
    have named := RuleSet.mem_names (RuleSet.listAt?_state set name ▸ found)
    obtain ⟨i, at_⟩ := List.mem_iff_getElem?.mp named
    exact ⟨⟨i⟩, List.mem_append_left _ (mem_namedLists.mpr ⟨name, at_, rfl⟩)⟩
  | push place i ih =>
    intro rules found some_
    obtain ⟨around, rule, at_, inside, pushed⟩ := RuleSet.listAt?_push_inv found
    obtain ⟨id, member⟩ := ih around at_ (List.ne_nil_of_mem (List.mem_of_getElem? inside))
    obtain ⟨other, opened⟩ := inv.pushed_opened member at_ inside pushed
    rw [RuleSet.keyAt_of_ne_nil found some_] at opened
    exact ⟨other, List.mem_append_right _ opened⟩

theorem Invariant.wellFormed (inv : Invariant (namedLists set.names) a []) {place : Place}
    {rules : List Rule} (found : set.listAt? place = some rules) {rule : Rule}
    (inside : rule ∈ rules) : rule.WellFormed set := by
  obtain ⟨id, member⟩ := inv.listed place rules found (List.ne_nil_of_mem inside)
  obtain ⟨e, _, _, expands, _⟩ := inv.filled _ id member
  have made := inv.made member expands
  have plain := expands.plain
  obtain ⟨rules', found', expands⟩ := expands
  obtain rfl := Option.some.inj (found.symm.trans found')
  obtain ⟨i, at_⟩ := List.mem_iff_getElem?.mp inside
  rcases expands.entry at_ with said | said | said
  · obtain ⟨target, names, alone, named⟩ := said
    rw [Rule.eq_including names alone]
    exact .including target _ named
  · obtain ⟨kind, noInclude, gives, alone⟩ := said
    rw [Rule.eq_default noInclude gives alone]
    exact .default kind _
  · obtain ⟨entry, present, _, _, rfl⟩ := said
    obtain ⟨rule', made⟩ := made entry present
    exact made.wellFormed (plain entry present).1 (plain entry present).2

theorem Invariant.acyclic (inv : Invariant (namedLists set.names) a []) (name : String) :
    ¬ Relation.TransGen set.Includes name name := by
  intro cycle
  -- The first state on the cycle has a list, since an entry of it includes the second one.
  obtain ⟨_, ⟨rules, found, rule, inside, _⟩, _⟩ := Relation.TransGen.head'_iff.mp cycle
  obtain ⟨id, member⟩ := inv.listed ⟨name, []⟩ rules (by simp [found]) (List.ne_nil_of_mem inside)
  obtain ⟨e, _, _, expands, _⟩ := inv.filled _ id member
  exact RuleSet.ExpandsAt.acyclic expands cycle

theorem written_wellFormed (well : set.WellFormed) (entry : Located set) :
    entry.rule.WellFormed set := by
  obtain ⟨rules, found, at_⟩ := Option.bind_eq_some_iff.mp entry.written
  exact well.entries entry.place rules found entry.rule (List.mem_of_getElem? at_)

theorem compiles_isOk (well : set.WellFormed) {agenda : List (StateId × Located set)}
    {outcome : Except LoadError (Assembly set)} (inv : Invariant begun a agenda)
    (h : Compiles a agenda outcome) : ∃ b, outcome = .ok b := by
  induction h with
  | done a => exact ⟨a, rfl⟩
  | @refused a id entry rest fault failed =>
    obtain ⟨_, plain, noDefault⟩ := inv.due id entry List.mem_cons_self
    obtain ⟨c, checked⟩ := check_isOk inv.right (written_wellFormed well entry) plain noDefault
    simp [failed] at checked
  | known checked leads _ ih => exact ih (inv.known checked leads)
  | met checked leads number _ ih => exact ih (inv.met checked leads number)
  | @unread a id entry rest c entries pushed fault checked leads new failed =>
    have written := listAt?_pushed entry pushed
    obtain ⟨reading, read⟩ := Marks.readFrom_ok well inv.sound (entry.place.push entry.index) 0
      entries (written_pushed entry pushed) (well.entries _ entries written) (by simp)
    simp [failed] at read
  | opens checked leads new read _ ih => exact ih (inv.opens checked leads new read)

theorem builds_isOk (well : set.WellFormed) {done names : List String} {index : Nat}
    {outcome : Except LoadError (Assembly set)} (half : Halfway a done names)
    (number : index = done.length) (h : Builds a index names outcome) : ∃ b, outcome = .ok b := by
  induction h generalizing done with
  | done a => exact ⟨a, rfl⟩
  | @unread a index name rest fault failed =>
    have named : name ∈ set.names := by simp [half.all]
    obtain ⟨reading, read⟩ := Marks.readState_ok well half.invariant.sound ⟨name, []⟩ name named
      (by simp)
    simp [failed] at read
  | refused read failed =>
    subst number
    exact absurd (compiles_isOk well (half.begin read) failed) (by simp)
  | next read compiled _ ih =>
    subst number
    exact ih (half.next read compiled) (by simp)

end Loading

namespace RuleSet

theorem contains_iff {name : String} : set.contains name = true ↔ name ∈ set.names := by
  rw [mem_names_iff]
  exact Option.isSome_iff_exists

variable [RegexEngine]

theorem wellFormed_of_load {x : Lexicon} (loaded : set.load.2 = .ok x) : set.WellFormed := by
  obtain ⟨a, start, made, first, rfl⟩ := load_eq_ok_iff.mp loaded
  have inv := assembly_invariant made
  exact {
    start := contains_iff.mpr (List.isSome_idxOf?.mp (first ▸ rfl))
    entries := fun _ _ found _ inside => inv.wellFormed found inside
    acyclic := inv.acyclic }

theorem WellFormed.loads (well : set.WellFormed) : ∃ x, set.load.2 = .ok x := by
  obtain ⟨a, made⟩ := Loading.builds_isOk well set.halfway_blank rfl set.assembly_builds
  obtain ⟨start, first⟩ :=
    Option.isSome_iff_exists.mp (List.isSome_idxOf?.mpr (contains_iff.mp well.start))
  exact ⟨_, load_eq_ok_iff.mpr ⟨a, start, made, first, rfl⟩⟩

/-- A rule set is loaded if and only if it is well-formed. -/
theorem load_isOk_iff_wellFormed (set : RuleSet) :
    (∃ x, set.load.2 = .ok x) ↔ set.WellFormed :=
  ⟨fun ⟨_, loaded⟩ => wellFormed_of_load loaded, WellFormed.loads⟩

end RuleSet

end StackLexer
