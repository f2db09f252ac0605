import StackLexer.Proofs.Grammar.Numbering
import StackLexer.Proofs.Grammar.Splice

/-! The order in which pushed lists are met.
A walk goes through the entries that a list stands for and, where an entry pushes a list, through that
list before the entries after it, unless it has been there. Lists are opened in the order in which such
a walk through the named states meets them. -/

namespace StackLexer

namespace RuleSet

def spliced (set : RuleSet) (place : Place) : List (Place × Nat × Rule) :=
  set.splice [] place 0 (set.entriesAt place)

/-- A walk through some entries, with the lists that have been met before it and after it. -/
inductive Walk (set : RuleSet) : List PushKey → List (Place × Nat × Rule) → List PushKey → Prop
  | done (met : List PushKey) : Walk set met [] met
  | plain {met after : List PushKey} {place : Place} {index : Nat} {rule : Rule}
      {rest : List (Place × Nat × Rule)} (none_ : rule.pushed? = none)
      (others : Walk set met rest after) : Walk set met ((place, index, rule) :: rest) after
  | again {met after : List PushKey} {place : Place} {index : Nat} {rule : Rule}
      {rest : List (Place × Nat × Rule)} (pushed : rule.pushed?.isSome)
      (before : set.keyAt (place.push index) ∈ met) (others : Walk set met rest after) :
      Walk set met ((place, index, rule) :: rest) after
  | first {met between after : List PushKey} {place : Place} {index : Nat} {rule : Rule}
      {rest : List (Place × Nat × Rule)} (pushed : rule.pushed?.isSome)
      (new : set.keyAt (place.push index) ∉ met)
      (inside : Walk set (met ++ [set.keyAt (place.push index)]) (set.spliced (place.push index))
        between)
      (others : Walk set between rest after) : Walk set met ((place, index, rule) :: rest) after

variable {set : RuleSet} {met after : List PushKey} {entries others : List (Place × Nat × Rule)}

theorem Walk.append {between : List PushKey} (walk : set.Walk met entries between)
    (next : set.Walk between others after) : set.Walk met (entries ++ others) after := by
  induction walk with
  | done met => exact next
  | plain none_ _ ih => exact .plain none_ (ih next)
  | again pushed before _ ih => exact .again pushed before (ih next)
  | first pushed new inside _ _ ih => exact .first pushed new inside (ih next)

theorem Walk.split (walk : set.Walk met (entries ++ others) after) :
    ∃ between, set.Walk met entries between ∧ set.Walk between others after := by
  induction entries generalizing met with
  | nil => exact ⟨met, .done met, walk⟩
  | cons entry rest ih =>
    cases walk with
    | plain none_ walk =>
      obtain ⟨between, first, second⟩ := ih walk
      exact ⟨between, .plain none_ first, second⟩
    | again pushed before walk =>
      obtain ⟨between, first, second⟩ := ih walk
      exact ⟨between, .again pushed before first, second⟩
    | first pushed new inside walk =>
      obtain ⟨between, first, second⟩ := ih walk
      exact ⟨between, .first pushed new inside first, second⟩

theorem Walk.unique {other : List PushKey} (walk : set.Walk met entries after)
    (walk' : set.Walk met entries other) : after = other := by
  induction walk generalizing other with
  | done => cases walk'; rfl
  | plain none_ _ ih =>
    cases walk' with
    | plain _ walk' => exact ih walk'
    | again pushed | first pushed => simp [none_] at pushed
  | again pushed before _ ih =>
    cases walk' with
    | plain none_ => simp [none_] at pushed
    | again _ _ walk' => exact ih walk'
    | first _ new => exact absurd before new
  | first pushed new _ _ deeper ih =>
    cases walk' with
    | plain none_ => simp [none_] at pushed
    | again _ before => exact absurd before new
    | first _ _ inside walk' =>
      obtain rfl := deeper inside
      exact ih walk'

theorem spliced_of_keyAt {place : Place} {e : Expansion set}
    (expands : (set.keyAt place).Expands set e) :
    set.spliced place = e.rules.map (fun l => (l.place, l.index, l.rule)) :=
  splice_of_expands (expands_keyAt expands) (away_nil set _)

end RuleSet

namespace Loading

variable {set : RuleSet} {begun : List (PushKey × StateId)} {a : Assembly set}

theorem mem_met_iff {key : PushKey} : key ∈ a.met ↔ (a.opened.lookup key).isSome := by
  rw [Assembly.met, List.mem_reverse, List.mem_map, ← not_iff_not, Option.not_isSome_iff_eq_none,
    List.lookup_eq_none_iff]
  constructor
  · intro absent list inside
    simpa using fun same => absent ⟨list, inside, same.symm⟩
  · rintro none_ ⟨list, inside, rfl⟩
    simpa using none_ list inside

theorem pushed?_of_known [RegexEngine] {patterns : Array Pattern} (right : Patterns.Right patterns)
    {entry : Located set} {c : Checked entry} (checked : check patterns entry = .ok c)
    {t : Transition} (leads : c.target = .known t) : entry.rule.pushed? = none := by
  have known := (check_passed right checked).known t leads []
  cases known with
  | stay _ push | pop _ push | goto _ _ push | push _ push => simp [Rule.pushed?, push]
  | list _ _ number => simp at number

theorem compiles_walk [RegexEngine] {agenda : List (StateId × Located set)} {b : Assembly set}
    (inv : Invariant begun a agenda) (h : Compiles a agenda (.ok b)) :
    set.Walk a.met (agenda.map (fun (_, l) => (l.place, l.index, l.rule))) b.met := by
  generalize outcome : Except.ok b = result at h
  induction h with
  | done a =>
    obtain rfl := Except.ok.inj outcome
    exact .done _
  | refused | unread => simp at outcome
  | known checked leads _ ih =>
    exact .plain (pushed?_of_known inv.right checked leads) (ih (inv.known checked leads) outcome)
  | @met a id target entry rest result c entries pushed checked leads number _ ih =>
    have before : set.keyAt (entry.place.push entry.index) ∈ a.met := by
      rw [mem_met_iff, number]
      rfl
    exact .again (pushed ▸ rfl) before (ih (inv.met checked leads number) outcome)
  | @opens a id entry rest result c entries pushed reading checked leads new read _ ih =>
    have fresh : set.keyAt (entry.place.push entry.index) ∉ a.met := by
      rw [mem_met_iff, new]
      simp
    have walk := ih (inv.opens checked leads new read) outcome
    rw [List.map_append, List.map_map] at walk
    obtain ⟨between, inside, others⟩ := walk.split
    have met := a.met_openList (set.keyAt (entry.place.push entry.index)) reading
    refine .first (pushed ▸ rfl) fresh ?_ others
    rw [RuleSet.spliced_of_keyAt (inv.read_expands pushed read), ← met]
    exact inside

theorem builds_walk [RegexEngine] {done names : List String} {index : Nat} {b : Assembly set}
    (half : Halfway a done names) (number : index = done.length)
    (h : Builds a index names (.ok b)) :
    set.Walk a.met (names.flatMap (fun name => set.spliced ⟨name, []⟩)) b.met := by
  generalize outcome : Except.ok b = result at h
  induction h generalizing done with
  | done a =>
    obtain rfl := Except.ok.inj outcome
    exact .done _
  | unread | refused => simp at outcome
  | @next a c index name rest reading result read compiled _ ih =>
    subst number
    have walk := compiles_walk (half.begin read) compiled
    rw [List.map_map] at walk
    have expands : (set.keyAt ⟨name, []⟩).Expands set reading.expansion := half.read_expands read
    rw [List.flatMap_cons, RuleSet.spliced_of_keyAt expands]
    exact walk.append (ih (half.next read compiled) (by simp) outcome)

end Loading

theorem RuleSet.assembly_walk [RegexEngine] {set : RuleSet} {a : Assembly set}
    (made : set.assembly = .ok a) :
    set.Walk [] (set.names.flatMap (fun name => set.spliced ⟨name, []⟩)) a.met :=
  Loading.builds_walk set.halfway_blank rfl (made ▸ set.assembly_builds)

end StackLexer
