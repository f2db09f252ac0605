import Mathlib
import StackLexer.Proofs.Grammar.Acceptance
import StackLexer.Proofs.Grammar.Numbering

/-! The places of the pushed lists.
They are the paths that lead from a state to a list over at least one entry, and each of them is met once
when the entries are gone through in the order in which they are written. When a rule set has been loaded
each of these lists has a state, so that they can be counted. -/

namespace StackLexer

namespace Rule

variable {rule : Rule} {rules entries : List Rule} {index i : Nat} {path : List Nat}

theorem pushPaths_of_plain (plain : rule.pushed? = none) (index : Nat) :
    rule.pushPaths index = [] := by
  obtain ⟨_, _, _, push, _, _, _, _⟩ := rule
  unfold pushPaths
  split
  · rename_i found same
    cases same
    simp [pushed?] at plain
  · rfl

theorem sizeOf_pushed (pushed : rule.pushed? = some entries) : sizeOf entries < sizeOf rule := by
  obtain ⟨_, _, _, push, _, _, _, _⟩ := rule
  obtain rfl := Loading.pushed?_eq_some.mp pushed
  simp only [mk.sizeOf_spec, Option.some.sizeOf_spec, Push.rules.sizeOf_spec]
  omega

theorem mem_pushPaths (member : path ∈ rule.pushPaths index) :
    ∃ entries more, rule.pushed? = some entries ∧ path = index :: more ∧
      (more = [] ∨ more ∈ pushPathsFrom 0 entries) := by
  cases pushed : rule.pushed? with
  | none => simp [pushPaths_of_plain pushed] at member
  | some entries =>
    rw [pushPaths_of_pushed pushed] at member
    rcases List.mem_cons.mp member with rfl | deeper
    · exact ⟨entries, [], rfl, rfl, .inl rfl⟩
    · obtain ⟨more, inside, rfl⟩ := List.mem_map.mp deeper
      exact ⟨entries, more, rfl, rfl, .inr inside⟩

theorem mem_pushPathsFrom_inv (member : path ∈ pushPathsFrom index rules) :
    ∃ (i : Nat) (rule : Rule), rules[i]? = some rule ∧ path ∈ rule.pushPaths (index + i) := by
  induction rules generalizing index with
  | nil => simp [pushPathsFrom] at member
  | cons head rest ih =>
    rw [pushPathsFrom] at member
    rcases List.mem_append.mp member with here | later
    · exact ⟨0, head, rfl, here⟩
    · obtain ⟨i, rule, at_, inside⟩ := ih later
      rw [Nat.add_right_comm, Nat.add_assoc] at inside
      exact ⟨i + 1, rule, at_, inside⟩

theorem listAt?_of_mem_pushPathsFrom (member : path ∈ pushPathsFrom 0 rules) :
    path ≠ [] ∧ ∃ entries, listAt? rules path = some entries := by
  induction path generalizing rules with
  | nil =>
    obtain ⟨i, rule, _, inside⟩ := mem_pushPathsFrom_inv member
    obtain ⟨_, _, _, same, _⟩ := mem_pushPaths inside
    simp at same
  | cons j path ih =>
    obtain ⟨i, rule, at_, inside⟩ := mem_pushPathsFrom_inv member
    obtain ⟨entries, more, pushed, same, deeper⟩ := mem_pushPaths inside
    rw [Nat.zero_add] at same
    obtain ⟨rfl, rfl⟩ := List.cons.inj same
    refine ⟨List.cons_ne_nil _ _, ?_⟩
    simp only [listAt?, at_, Option.bind_some, pushed]
    rcases deeper with rfl | deeper
    · exact ⟨entries, rfl⟩
    · exact (ih deeper).2

theorem nodup_pushPathsFrom (index : Nat) (rules : List Rule) :
    (pushPathsFrom index rules).Nodup := by
  match rules with
  | [] => simp [pushPathsFrom]
  | rule :: rest =>
    have others := nodup_pushPathsFrom (index + 1) rest
    rw [pushPathsFrom]
    refine List.nodup_append'.mpr ⟨?_, others, ?_⟩
    · cases pushed : rule.pushed? with
      | none => simp [pushPaths_of_plain pushed]
      | some entries =>
        have smaller := sizeOf_pushed pushed
        have deeper := nodup_pushPathsFrom 0 entries
        rw [pushPaths_of_pushed pushed]
        refine List.nodup_cons.mpr ⟨?_, deeper.map (List.cons_injective)⟩
        -- The path of the list itself ends at the entry, where those of the lists in it go on.
        intro within
        obtain ⟨path, inside, same⟩ := List.mem_map.mp within
        exact (listAt?_of_mem_pushPathsFrom inside).1 (List.cons.inj same).2
    · -- The paths of an entry begin with its index, and the later entries have greater ones.
      intro path here later
      obtain ⟨_, _, _, rfl, _⟩ := mem_pushPaths here
      obtain ⟨i, other, _, inside⟩ := mem_pushPathsFrom_inv later
      obtain ⟨_, _, _, same, _⟩ := mem_pushPaths inside
      have := (List.cons.inj same).1
      omega
termination_by sizeOf rules

end Rule

theorem Place.exists_push {p : Place} (long : p.path ≠ []) : ∃ (q : Place) (i : Nat), p = q.push i := by
  obtain ⟨state, path⟩ := p
  obtain ⟨path, i, rfl⟩ := (List.eq_nil_or_concat' path).resolve_left long
  exact ⟨⟨state, path⟩, i, rfl⟩

theorem Dictionary.get?_of_mem {α : Type} {d : Dictionary α} {name : String} {value : α}
    (member : (name, value) ∈ d.entries) : d.get? name = some value := by
  obtain ⟨before, after, split⟩ := List.append_of_mem member
  have sorted := split ▸ d.sorted
  refine List.lookup_eq_some_iff.mpr ⟨before, after, split, fun e earlier => ?_⟩
  have less := (List.pairwise_append.mp sorted).2.2 e earlier _ List.mem_cons_self
  simpa using (String.ne_of_lt less).symm

namespace RuleSet

variable {set : RuleSet} {p : Place}

theorem listAt?_of_mem_pushPlaces (member : p ∈ set.pushPlaces) :
    p.path ≠ [] ∧ ∃ entries, set.listAt? p = some entries := by
  obtain ⟨⟨name, rules⟩, state, inside⟩ := List.mem_flatMap.mp member
  obtain ⟨path, leads, rfl⟩ := List.mem_map.mp inside
  obtain ⟨long, entries, found⟩ := Rule.listAt?_of_mem_pushPathsFrom leads
  refine ⟨long, entries, Option.bind_eq_some_iff.mpr ⟨rules, ?_, found⟩⟩
  exact Dictionary.get?_of_mem state

theorem mem_pushPlaces_iff :
    p ∈ set.pushPlaces ↔ p.path ≠ [] ∧ ∃ entries, set.listAt? p = some entries := by
  refine ⟨listAt?_of_mem_pushPlaces, ?_⟩
  rintro ⟨long, entries, found⟩
  obtain ⟨around, i, rfl⟩ := Place.exists_push long
  exact mem_pushPlaces found

theorem nodup_pushPlaces (set : RuleSet) : set.pushPlaces.Nodup := by
  refine List.nodup_flatMap.mpr ⟨fun state _ => ?_, set.states.sorted.imp fun {first second} less => ?_⟩
  · exact (Rule.nodup_pushPathsFrom 0 state.2).map (fun path other same => congrArg Place.path same)
  · intro place here there
    obtain ⟨_, _, rfl⟩ := List.mem_map.mp here
    obtain ⟨_, _, same⟩ := List.mem_map.mp there
    exact String.ne_of_lt less (congrArg Place.state same).symm

def hasRoom (set : RuleSet) (p : Place) : Bool := !(set.entriesAt p).isEmpty || set.reserved.contains p

theorem hasRoom_of_reserved_nil (plain : set.reserved = []) (p : Place) :
    set.hasRoom p = !(set.entriesAt p).isEmpty := by
  simp [hasRoom, plain]

theorem keyAt_of_mem_pushPlaces (member : p ∈ set.pushPlaces) :
    set.keyAt p = if set.hasRoom p then .list p else .emptyList := by
  obtain ⟨long, entries, found⟩ := listAt?_of_mem_pushPlaces member
  have same : set.entriesAt p = entries := by rw [entriesAt, found, Option.getD_some]
  cases entries with
  | nil =>
    obtain ⟨i, path, cons⟩ := List.exists_cons_of_ne_nil long
    simp only [keyAt, cons, found, hasRoom, same, List.isEmpty_nil, Bool.not_true, Bool.false_or,
      List.contains_iff_mem]
  | cons rule rest =>
    rw [keyAt_of_ne_nil found (List.cons_ne_nil rule rest), hasRoom, same]
    rfl

/-- Two pushed lists count as one if they are the same or have no room. -/
theorem keyAt_eq_iff {q : Place} (member : p ∈ set.pushPlaces) (other : q ∈ set.pushPlaces) :
    set.keyAt p = set.keyAt q ↔ p = q ∨ set.hasRoom p = false ∧ set.hasRoom q = false := by
  rw [keyAt_of_mem_pushPlaces member, keyAt_of_mem_pushPlaces other]
  constructor
  · intro same
    split at same <;> split at same
    · exact .inl (PushKey.list.inj same)
    · simp at same
    · simp at same
    · rename_i first second
      exact .inr ⟨by simpa using first, by simpa using second⟩
  · rintro (rfl | ⟨first, second⟩)
    · rfl
    · rw [first, second]
      rfl

def pushedKeys (set : RuleSet) : List PushKey :=
  (set.pushPlaces.filter set.hasRoom).map .list ++
    if set.pushPlaces.any (fun p => !set.hasRoom p) then [.emptyList] else []

theorem nodup_pushedKeys (set : RuleSet) : set.pushedKeys.Nodup := by
  refine List.nodup_append'.mpr ⟨?_, ?_, ?_⟩
  · exact (set.nodup_pushPlaces.filter _).map (fun p q same => PushKey.list.inj same)
  · split
    · exact List.nodup_singleton _
    · exact List.nodup_nil
  · intro key inside outside
    obtain ⟨p, _, rfl⟩ := List.mem_map.mp inside
    split at outside <;> simp at outside

theorem mem_pushedKeys {key : PushKey} :
    key ∈ set.pushedKeys ↔ ∃ p ∈ set.pushPlaces, set.keyAt p = key := by
  rw [pushedKeys, List.mem_append]
  constructor
  · rintro (inside | outside)
    · obtain ⟨p, full, rfl⟩ := List.mem_map.mp inside
      obtain ⟨member, room⟩ := List.mem_filter.mp full
      exact ⟨p, member, by rw [keyAt_of_mem_pushPlaces member, if_pos room]⟩
    · split at outside
      · rename_i some_
        obtain rfl := List.mem_singleton.mp outside
        obtain ⟨p, member, none_⟩ := List.any_eq_true.mp some_
        exact ⟨p, member, by rw [keyAt_of_mem_pushPlaces member, if_neg (by simpa using none_)]⟩
      · simp at outside
  · rintro ⟨p, member, rfl⟩
    rw [keyAt_of_mem_pushPlaces member]
    split
    · rename_i room
      exact .inl (List.mem_map_of_mem (List.mem_filter.mpr ⟨member, room⟩))
    · rename_i none_
      have some_ : set.pushPlaces.any (fun p => !set.hasRoom p) :=
        List.any_eq_true.mpr ⟨p, member, by simpa using none_⟩
      rw [if_pos some_]
      exact .inr (List.mem_singleton_self _)

theorem length_pushedKeys (set : RuleSet) :
    set.pushedKeys.length = set.pushPlaces.countP set.hasRoom +
      if set.pushPlaces.any (fun p => !set.hasRoom p) then 1 else 0 := by
  rw [pushedKeys, List.length_append, List.length_map, ← List.countP_eq_length_filter]
  split <;> rfl

end RuleSet

namespace Loading

variable [RegexEngine] {set : RuleSet} {a : Assembly set}

theorem Invariant.mem_met (inv : Invariant (namedLists set.names) a []) {p : Place}
    (member : p ∈ set.pushPlaces) : set.keyAt p ∈ a.met := by
  obtain ⟨long, entries, found⟩ := RuleSet.listAt?_of_mem_pushPlaces member
  obtain ⟨place, i, rfl⟩ := Place.exists_push long
  obtain ⟨around, rule, at_, inside, pushed⟩ := RuleSet.listAt?_push_inv found
  obtain ⟨id, has⟩ := inv.listed _ around at_ (List.ne_nil_of_mem (List.mem_of_getElem? inside))
  obtain ⟨other, opened⟩ := inv.pushed_opened has at_ inside pushed
  exact List.mem_reverse.mpr (List.mem_map_of_mem opened)

/-- The lists that have been opened are all those that are pushed. -/
theorem Numbered.met_perm (numbered : Numbered a) (inv : Invariant (namedLists set.names) a []) :
    a.met.Perm set.pushedKeys := by
  refine (List.perm_ext_iff_of_nodup numbered.once set.nodup_pushedKeys).mpr (fun key => ?_)
  rw [RuleSet.mem_pushedKeys]
  constructor
  · exact numbered.written key
  · rintro ⟨p, member, rfl⟩
    exact inv.mem_met member

end Loading

end StackLexer
