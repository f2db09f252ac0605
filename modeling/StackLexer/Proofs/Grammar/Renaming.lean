import Mathlib.Logic.Equiv.Defs
import Mathlib.Logic.Relation
import StackLexer.Proofs.Grammar.PushPlaces

/-! Rule sets under new names.
A renaming replaces the names of states wherever a rule set has them: where a state is defined, included,
gone to or pushed. The names come in another order then, but each list is that of the same state as
before and stands in the same place below it. Renaming back gives the old rule set, so what a renaming
keeps, it keeps in both directions. -/

namespace StackLexer

mutual

def Rule.renamed (f : Equiv.Perm String) : Rule → Rule
  | { token, regex, next, push, defaultToken, includes, caseInsensitive, comment } =>
    { token, regex, next := next.map f
      push := match push with
        | some target => some (target.renamed f)
        | none => none
      defaultToken, includes := includes.map f, caseInsensitive, comment }

def Push.renamed (f : Equiv.Perm String) : Push → Push
  | .rules entries => .rules (Rule.listRenamed f entries)
  | .state name => .state (f name)

def Rule.listRenamed (f : Equiv.Perm String) : List Rule → List Rule
  | [] => []
  | rule :: rest => rule.renamed f :: Rule.listRenamed f rest

end

def Place.renamed (f : Equiv.Perm String) (p : Place) : Place := { p with state := f p.state }

/-- The lists keep the room that they have. -/
def RuleSet.renamed (f : Equiv.Perm String) (set : RuleSet) : RuleSet where
  states := .ofEntries
    (set.states.entries.map (fun (name, rules) => (f name, rules.map (Rule.renamed f))))
  reserved := set.reserved.map (Place.renamed f)

def PushKey.renamed (f : Equiv.Perm String) : PushKey → PushKey
  | .emptyList => .emptyList
  | .list place => .list (place.renamed f)

/-! ### Entries and places -/

section

variable {f : Equiv.Perm String}

theorem Rule.listRenamed_eq_map (rules : List Rule) :
    Rule.listRenamed f rules = rules.map (Rule.renamed f) := by
  induction rules with
  | nil => rfl
  | cons rule rest ih => simp [Rule.listRenamed, ih]

namespace Rule

variable (rule : Rule)

@[simp] theorem renamed_token : (rule.renamed f).token = rule.token := by
  cases rule
  simp [renamed]

@[simp] theorem renamed_regex : (rule.renamed f).regex = rule.regex := by
  cases rule
  simp [renamed]

@[simp] theorem renamed_next : (rule.renamed f).next = rule.next.map f := by
  cases rule
  simp [renamed]

@[simp] theorem renamed_push : (rule.renamed f).push = rule.push.map (Push.renamed f) := by
  obtain ⟨_, _, _, push, _, _, _, _⟩ := rule
  cases push <;> simp [renamed]

@[simp] theorem renamed_defaultToken : (rule.renamed f).defaultToken = rule.defaultToken := by
  cases rule
  simp [renamed]

@[simp] theorem renamed_includes : (rule.renamed f).includes = rule.includes.map f := by
  cases rule
  simp [renamed]

@[simp] theorem renamed_caseInsensitive :
    (rule.renamed f).caseInsensitive = rule.caseInsensitive := by
  cases rule
  simp [renamed]

theorem renamed_pushed? :
    (rule.renamed f).pushed? = rule.pushed?.map (List.map (Rule.renamed f)) := by
  unfold pushed?
  rw [renamed_push]
  cases rule.push with
  | none => rfl
  | some target => cases target <;> simp [Push.renamed, listRenamed_eq_map]

end Rule

mutual

theorem Rule.renamed_back (rule : Rule) : (rule.renamed f).renamed f.symm = rule := by
  obtain ⟨token, regex, next, push, defaultToken, includes, caseInsensitive, comment⟩ := rule
  cases push with
  | none => simp [Rule.renamed, Function.comp_def]
  | some target => simp [Rule.renamed, Function.comp_def, Push.renamed_back target]

theorem Push.renamed_back (target : Push) : (target.renamed f).renamed f.symm = target := by
  match target with
  | .state name => simp [Push.renamed]
  | .rules entries => simp [Push.renamed, Rule.listRenamed_back entries]

theorem Rule.listRenamed_back (rules : List Rule) :
    Rule.listRenamed f.symm (Rule.listRenamed f rules) = rules := by
  match rules with
  | [] => rfl
  | rule :: rest =>
    simp [Rule.listRenamed, Rule.renamed_back rule, Rule.listRenamed_back rest]

end

@[simp] theorem Place.renamed_back (p : Place) : (p.renamed f).renamed f.symm = p := by
  simp [Place.renamed]

@[simp] theorem Place.renamed_forth (p : Place) : (p.renamed f.symm).renamed f = p := by
  simp [Place.renamed]

@[simp] theorem PushKey.renamed_back (key : PushKey) : (key.renamed f).renamed f.symm = key := by
  cases key <;> simp [PushKey.renamed]

@[simp] theorem PushKey.renamed_forth (key : PushKey) : (key.renamed f.symm).renamed f = key := by
  cases key <;> simp [PushKey.renamed]

theorem PushKey.renamed_injective : Function.Injective (PushKey.renamed f) :=
  Function.LeftInverse.injective PushKey.renamed_back

theorem Rule.listAt?_renamed (rules : List Rule) (path : List Nat) :
    Rule.listAt? (rules.map (Rule.renamed f)) path =
      (Rule.listAt? rules path).map (List.map (Rule.renamed f)) := by
  induction path generalizing rules with
  | nil => rfl
  | cons i path ih =>
    have leads : ((rules.map (Rule.renamed f))[i]?).bind Rule.pushed? =
        ((rules[i]?).bind Rule.pushed?).map (List.map (Rule.renamed f)) := by
      rw [List.getElem?_map]
      cases rules[i]? with
      | none => rfl
      | some rule => exact Rule.renamed_pushed? rule
    rw [Rule.listAt?, Rule.listAt?, leads]
    cases (rules[i]?).bind Rule.pushed? with
    | none => rfl
    | some entries => exact ih entries

end

/-! ### Dictionaries -/

namespace Entries

variable {α : Type}

theorem lookup_cons (name : String) (e : String × α) (rest : List (String × α)) :
    (e :: rest).lookup name = if name = e.1 then some e.2 else rest.lookup name := by
  obtain ⟨n, v⟩ := e
  rw [List.lookup_cons]
  by_cases same : name = n
  · simp [same]
  · simp [same, beq_eq_false_iff_ne.mpr same]

theorem lookup_insert (name other : String) (value : α) (entries : List (String × α)) :
    (insert name value entries).lookup other =
      if other = name then some value else entries.lookup other := by
  induction entries with
  | nil => rw [insert, lookup_cons]
  | cons e rest ih =>
    obtain ⟨n, v⟩ := e
    rw [insert]
    split
    · rw [lookup_cons]
    · split
      · rename_i same
        subst same
        rw [lookup_cons, lookup_cons]
        split <;> rfl
      · rename_i different
        rw [lookup_cons, lookup_cons, ih]
        by_cases here : other = name
        · simp [here, different]
        · simp [here]

theorem lookup_sort {entries : List (String × α)} (distinct : (entries.map Prod.fst).Nodup)
    (name : String) : (sort entries).lookup name = entries.lookup name := by
  -- An entry that is put in hides those of its name before it, and with distinct names no later one
  -- hides it again.
  have go : ∀ sorted : List (String × α),
      (entries.foldl (fun sorted e => insert e.1 e.2 sorted) sorted).lookup name =
        (entries.lookup name).or (sorted.lookup name) := by
    induction entries with
    | nil => exact fun sorted => rfl
    | cons e rest ih =>
      intro sorted
      obtain ⟨new, distinct⟩ := List.nodup_cons.mp distinct
      rw [List.foldl_cons, ih distinct, lookup_insert, lookup_cons]
      by_cases same : name = e.1
      · have absent : rest.lookup name = none := by
          refine List.lookup_eq_none_iff.mpr fun other inside => ?_
          have different : name ≠ other.1 := fun here =>
            new (List.mem_map.mpr ⟨other, inside, here.symm.trans same⟩)
          simpa using different
        rw [absent, if_pos same, if_pos same]
        rfl
      · rw [if_neg same, if_neg same]
  simpa [sort] using go []

theorem lookup_map {β : Type} {f : String → String} (injective : Function.Injective f) (g : α → β)
    (entries : List (String × α)) (name : String) :
    (entries.map (fun e => (f e.1, g e.2))).lookup (f name) = (entries.lookup name).map g := by
  induction entries with
  | nil => rfl
  | cons e rest ih =>
    rw [List.map_cons, lookup_cons, lookup_cons, ih]
    by_cases same : name = e.1
    · simp [same]
    · simp [same, injective.ne same]

end Entries

/-! ### Rule sets -/

namespace RuleSet

/-- A rule set is another one under new names. The state in which scanning begins and the name that
stands for going back stay. -/
structure Renames (f : Equiv.Perm String) (set other : RuleSet) : Prop where
  get? : ∀ name, other.get? (f name) = (set.get? name).map (List.map (Rule.renamed f))
  reserved : other.reserved = set.reserved.map (Place.renamed f)
  start : f startName = startName
  pop : f popName = popName

theorem renames_renamed {f : Equiv.Perm String} (set : RuleSet) (start : f startName = startName)
    (pop : f popName = popName) : Renames f set (set.renamed f) := by
  refine ⟨fun name => ?_, rfl, start, pop⟩
  have distinct : ((set.states.entries.map
      (fun e => (f e.1, e.2.map (Rule.renamed f)))).map Prod.fst).Nodup := by
    rw [List.map_map]
    exact List.pairwise_map.mpr
      (set.states.sorted.imp (fun less => f.injective.ne (String.ne_of_lt less)))
  exact (Entries.lookup_sort distinct (f name)).trans (Entries.lookup_map f.injective _ _ name)

namespace Renames

variable {f : Equiv.Perm String} {set other : RuleSet}

theorem symm (r : Renames f set other) : Renames f.symm other set := by
  refine ⟨fun name => ?_, ?_, (Equiv.symm_apply_eq f).mpr r.start.symm,
    (Equiv.symm_apply_eq f).mpr r.pop.symm⟩
  case refine_2 => simp [r.reserved, Function.comp_def]
  have forth := r.get? (f.symm name)
  rw [Equiv.apply_symm_apply] at forth
  rw [forth, Option.map_map]
  have back : List.map (Rule.renamed f.symm) ∘ List.map (Rule.renamed f) = id := by
    funext rules
    simp [Function.comp_def, Rule.renamed_back]
  simp [back]

theorem get?_some (r : Renames f set other) {name : String} {rules : List Rule}
    (found : set.get? name = some rules) : other.get? (f name) = some (rules.map (Rule.renamed f)) := by
  rw [r.get?, found]
  rfl

theorem get?_none (r : Renames f set other) {name : String} (absent : set.get? name = none) :
    other.get? (f name) = none := by
  rw [r.get?, absent]
  rfl

theorem eq_pop_iff (r : Renames f set other) {name : String} : f name = popName ↔ name = popName := by
  rw [← r.pop, f.apply_eq_iff_eq, r.pop]

theorem mem_names (r : Renames f set other) {name : String} (named : name ∈ set.names) :
    f name ∈ other.names := by
  obtain ⟨rules, found⟩ := mem_names_iff.mp named
  exact mem_names_iff.mpr ⟨_, r.get?_some found⟩

theorem listAt? (r : Renames f set other) (p : Place) :
    other.listAt? (p.renamed f) = (set.listAt? p).map (List.map (Rule.renamed f)) := by
  rw [RuleSet.listAt?, RuleSet.listAt?, Place.renamed, r.get?]
  cases set.get? p.state with
  | none => rfl
  | some rules => simp [Rule.listAt?_renamed]

theorem entriesAt (r : Renames f set other) (p : Place) :
    other.entriesAt (p.renamed f) = (set.entriesAt p).map (Rule.renamed f) := by
  rw [RuleSet.entriesAt, RuleSet.entriesAt, r.listAt?]
  cases set.listAt? p <;> simp

theorem mem_reserved_iff (r : Renames f set other) {p : Place} :
    p.renamed f ∈ other.reserved ↔ p ∈ set.reserved := by
  rw [r.reserved]
  exact List.mem_map_of_injective (Function.LeftInverse.injective Place.renamed_back)

theorem keyAt (r : Renames f set other) (p : Place) :
    other.keyAt (p.renamed f) = (set.keyAt p).renamed f := by
  have list := r.listAt? p
  have room := r.mem_reserved_iff (p := p)
  obtain ⟨state, path⟩ := p
  cases path with
  | nil => rfl
  | cons i path =>
    simp only [RuleSet.keyAt, list, room]
    cases set.listAt? ⟨state, i :: path⟩ with
    | none => rfl
    | some rules =>
      cases rules with
      | cons => rfl
      | nil =>
        by_cases kept : (⟨state, i :: path⟩ : Place) ∈ set.reserved
        · simp only [kept, if_true]
          rfl
        · simp only [kept, if_false]
          rfl

theorem exists_list (r : Renames f set other) {q : Place} {renamed : List Rule}
    (found : other.listAt? q = some renamed) :
    ∃ rules, set.listAt? (q.renamed f.symm) = some rules ∧ renamed = rules.map (Rule.renamed f) := by
  have list := r.listAt? (q.renamed f.symm)
  rw [Place.renamed_forth, found] at list
  obtain ⟨rules, at_, same⟩ := Option.map_eq_some_iff.mp list.symm
  exact ⟨rules, at_, same.symm⟩

theorem mem_pushPlaces (r : Renames f set other) {p : Place} (member : p ∈ set.pushPlaces) :
    p.renamed f ∈ other.pushPlaces := by
  obtain ⟨long, entries, found⟩ := mem_pushPlaces_iff.mp member
  exact mem_pushPlaces_iff.mpr ⟨long, entries.map (Rule.renamed f), by rw [r.listAt?, found]; rfl⟩

theorem mem_pushedKeys (r : Renames f set other) {key : PushKey} (member : key ∈ set.pushedKeys) :
    key.renamed f ∈ other.pushedKeys := by
  obtain ⟨p, inside, rfl⟩ := RuleSet.mem_pushedKeys.mp member
  exact RuleSet.mem_pushedKeys.mpr ⟨p.renamed f, r.mem_pushPlaces inside, r.keyAt p⟩

/-! ### Well-formedness -/

theorem includes (r : Renames f set other) {state target : String}
    (edge : set.Includes state target) : other.Includes (f state) (f target) := by
  obtain ⟨rules, found, rule, inside, names⟩ := edge
  refine ⟨_, r.get?_some found, rule.renamed f, List.mem_map_of_mem inside, ?_⟩
  rw [Rule.renamed_includes, names]
  rfl

theorem wellFormed_rule [RegexEngine] (r : Renames f set other) {rule : Rule} (well : rule.WellFormed set) :
    (rule.renamed f).WellFormed other := by
  cases well with
  | including target comment named =>
    rw [Rule.renamed]
    exact .including (f target) comment (r.mem_names named)
  | default kind comment =>
    rw [Rule.renamed]
    exact .default kind comment
  | matching plain noDefault token text single compiles groups next push =>
    refine .matching (by simp [plain]) (by simp [noDefault]) (by simp [token])
      ((Rule.renamed_regex rule).trans text) (by simpa using single) (by simpa using compiles) groups
      (fun name asked => ?_) (fun name asked => ?_)
    · rw [Rule.renamed_next] at asked
      obtain ⟨old, goes, rfl⟩ := Option.map_eq_some_iff.mp asked
      exact (next old goes).imp r.eq_pop_iff.mpr r.mem_names
    · rw [Rule.renamed_push] at asked
      obtain ⟨target, pushes, same⟩ := Option.map_eq_some_iff.mp asked
      cases target with
      | rules entries => simp [Push.renamed] at same
      | state old =>
        obtain rfl : f old = name := by simpa [Push.renamed] using same
        exact r.mem_names (push old pushes)

theorem wellFormed [RegexEngine] (r : Renames f set other) (well : set.WellFormed) : other.WellFormed := by
  constructor
  case start =>
    rw [contains_iff, ← r.start]
    exact r.mem_names (contains_iff.mp well.start)
  case entries =>
    intro place renamed found rule inside
    obtain ⟨rules, at_, rfl⟩ := r.exists_list found
    obtain ⟨old, member, rfl⟩ := List.mem_map.mp inside
    exact r.wellFormed_rule (well.entries _ rules at_ old member)
  case acyclic =>
    intro name cycle
    have back : Relation.TransGen set.Includes (f.symm name) (f.symm name) :=
      cycle.lift f.symm (fun _ _ edge => r.symm.includes edge)
    exact well.acyclic _ back

end Renames

end RuleSet

end StackLexer
