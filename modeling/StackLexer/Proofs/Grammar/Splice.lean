import StackLexer.Proofs.Grammar.Includes

/-! What a list stands for, read off the entries as they are written.
Splicing follows the includes wherever it meets them and remembers nothing. A state is not entered
again from within itself, so that splicing ends on any rule set; in a list that has an expansion this
never happens, and splicing yields the expansion. -/

namespace StackLexer.RuleSet

def outside (set : RuleSet) (within : List String) : List String :=
  set.names.filter (fun name => !within.contains name)

theorem outside_append {set : RuleSet} {within : List String} {name : String}
    (known : name ∈ set.names) (new : ¬ name ∈ within) :
    (set.outside (within ++ [name])).length < (set.outside within).length := by
  refine length_filter_lt known (fun x h => ?_) (by simpa using new) (by simp)
  simp only [List.contains_append, Bool.not_or, Bool.and_eq_true] at h
  exact h.1

/-- The entries that a list stands for, each with its place. An entry that includes a state gives way
to the entries of the state. `within` are the states that are being spliced. -/
def splice (set : RuleSet) (within : List String) (place : Place) (index : Nat)
    (rest : List Rule) : List (Place × Nat × Rule) :=
  match rest with
  | [] => []
  | rule :: rest =>
    let others := splice set within place (index + 1) rest
    match rule.includes with
    | some target =>
      match _found : set.get? target with
      | some rules =>
        if _new : target ∈ within then others
        else splice set (within ++ [target]) ⟨target, []⟩ 0 rules ++ others
      | none => others
    | none => if rule.defaultToken.isSome then others else (place, index, rule) :: others
termination_by ((set.outside within).length, rest.length)
decreasing_by
  · exact Prod.Lex.right _ (Nat.lt_succ_self _)
  · exact Prod.Lex.left _ _ (outside_append (mem_names _found) _new)

def ownDefault (rules : List Rule) : Option String := rules.findSome? Rule.defaultToken

def includedDefault (set : RuleSet) (within : List String) (rest : List Rule) : Option String :=
  match rest with
  | [] => none
  | rule :: rest =>
    let others := includedDefault set within rest
    match rule.includes with
    | some target =>
      match _found : set.get? target with
      | some rules =>
        if _new : target ∈ within then others
        else ((ownDefault rules).or (includedDefault set (within ++ [target]) rules)).or others
      | none => others
    | none => others
termination_by ((set.outside within).length, rest.length)
decreasing_by
  · exact Prod.Lex.right _ (Nat.lt_succ_self _)
  · exact Prod.Lex.left _ _ (outside_append (mem_names _found) _new)

section

variable {set : RuleSet} {rule : Rule} {target : String} {rules : List Rule} (within : List String)
  (place : Place) (index : Nat) (rest : List Rule)

theorem splice_known (names : rule.includes = some target) (found : set.get? target = some rules) :
    set.splice within place index (rule :: rest) =
      (if target ∈ within then [] else set.splice (within ++ [target]) ⟨target, []⟩ 0 rules) ++
        set.splice within place (index + 1) rest := by
  rw [splice]
  simp only [names]
  split
  · rename_i rules' found'
    obtain rfl := Option.some.inj (found.symm.trans found')
    split <;> rfl
  · rename_i absent
    simp [found] at absent

theorem splice_unknown (names : rule.includes = some target) (absent : set.get? target = none) :
    set.splice within place index (rule :: rest) = set.splice within place (index + 1) rest := by
  rw [splice]
  simp only [names]
  split
  · rename_i found
    simp [absent] at found
  · rfl

theorem splice_plain (plain : rule.includes = none) :
    set.splice within place index (rule :: rest) =
      (if rule.defaultToken.isSome then [] else [(place, index, rule)]) ++
        set.splice within place (index + 1) rest := by
  rw [splice]
  simp only [plain]
  split <;> rfl

theorem includedDefault_known (names : rule.includes = some target)
    (found : set.get? target = some rules) :
    set.includedDefault within (rule :: rest) =
      (if target ∈ within then none
        else (ownDefault rules).or (set.includedDefault (within ++ [target]) rules)).or
          (set.includedDefault within rest) := by
  rw [includedDefault]
  simp only [names]
  split
  · rename_i rules' found'
    obtain rfl := Option.some.inj (found.symm.trans found')
    split <;> rfl
  · rename_i absent
    simp [found] at absent

theorem includedDefault_unknown (names : rule.includes = some target)
    (absent : set.get? target = none) :
    set.includedDefault within (rule :: rest) = set.includedDefault within rest := by
  rw [includedDefault]
  simp only [names]
  split
  · rename_i found
    simp [absent] at found
  · rfl

theorem includedDefault_plain (plain : rule.includes = none) :
    set.includedDefault within (rule :: rest) = set.includedDefault within rest := by
  rw [includedDefault]
  simp only [plain]

end

variable {set : RuleSet} {within : List String} {place : Place} {index : Nat} {rest : List Rule}
  {rule : Rule}

def Away (set : RuleSet) (within : List String) (rest : List Rule) : Prop :=
  ∀ rule ∈ rest, ∀ target, rule.includes = some target →
    ∀ outer ∈ within, ¬ Relation.ReflTransGen set.Includes target outer

theorem away_nil (set : RuleSet) (rest : List Rule) : set.Away [] rest := by
  intro rule _ target _ outer inside
  simp at inside

theorem Away.tail (away : set.Away within (rule :: rest)) : set.Away within rest :=
  fun rule inside => away rule (List.mem_cons_of_mem _ inside)

theorem Away.new (away : set.Away within (rule :: rest)) {target : String}
    (names : rule.includes = some target) : target ∉ within :=
  fun inside => away rule List.mem_cons_self target names target inside .refl

theorem Away.enter (away : set.Away within (rule :: rest)) {target : String}
    (names : rule.includes = some target) {rules : List Rule}
    (found : set.get? target = some rules) {e : Expansion set}
    (expands : set.ExpandsAt ⟨target, []⟩ e) : set.Away (within ++ [target]) rules := by
  intro inner inside next follows outer member back
  have edge : set.Includes target next := ⟨rules, found, inner, inside, follows⟩
  rcases List.mem_append.mp member with member | member
  · exact away rule List.mem_cons_self target names outer member (.head edge back)
  · obtain rfl := List.mem_singleton.mp member
    exact expands.acyclic (.head' edge back)

theorem splice_of_expands {e : Expansion set} (expands : set.Expands place index rest e)
    (away : set.Away within rest) :
    set.splice within place index rest = e.rules.map (fun l => (l.place, l.index, l.rule)) := by
  induction expands generalizing within with
  | nil =>
    rw [splice]
    rfl
  | @including place index rule rest rules target included e names alone found inner tail ihInner
      ihTail =>
    have deeper := away.enter names found (expandsAt_state.mpr ⟨rules, found, inner⟩)
    rw [splice_known _ _ _ _ names found, if_neg (away.new names), ihInner deeper, ihTail away.tail,
      List.map_append]
  | default plain gives _ _ ih =>
    rw [splice_plain _ _ _ _ plain, ih away.tail]
    simp [gives]
  | matching plain gives _ _ ih =>
    rw [splice_plain _ _ _ _ plain, ih away.tail]
    simp [gives]

theorem splice_including {e : Expansion set} (expands : set.Expands place index (rule :: rest) e)
    {target : String} (names : rule.includes = some target) {rules : List Rule}
    (found : set.get? target = some rules) :
    set.splice [] place index (rule :: rest) =
      set.splice [] ⟨target, []⟩ 0 rules ++ set.splice [] place (index + 1) rest := by
  have whole := splice_of_expands expands (away_nil set _)
  cases expands with
  | including names' _ found' inner tail =>
    obtain rfl := Option.some.inj (names.symm.trans names')
    obtain rfl := Option.some.inj (found.symm.trans found')
    have first := splice_of_expands inner (away_nil set _)
    have others := splice_of_expands tail (away_nil set _)
    rw [whole, first, others, List.map_append]
  | default plain => simp [plain] at names
  | matching plain => simp [plain] at names

theorem ownDefault_of_expands {e : Expansion set} (expands : set.Expands place index rest e) :
    ownDefault rest = e.own := by
  induction expands with
  | nil => rfl
  | including _ alone _ _ _ _ ih =>
    simp only [Rule.includesMore, Bool.or_eq_false_iff, Option.isSome_eq_false_iff,
      Option.isNone_iff_eq_none] at alone
    rw [ownDefault, List.findSome?_cons, alone.1.2]
    exact ih
  | default _ gives => rw [ownDefault, List.findSome?_cons, gives]
  | matching _ gives _ _ ih =>
    rw [ownDefault, List.findSome?_cons, gives]
    exact ih

theorem includedDefault_of_expands {e : Expansion set} (expands : set.Expands place index rest e)
    (away : set.Away within rest) : set.includedDefault within rest = e.inherited := by
  induction expands generalizing within with
  | nil =>
    rw [includedDefault]
  | @including place index rule rest rules target included e names alone found inner tail ihInner
      ihTail =>
    have deeper := away.enter names found (expandsAt_state.mpr ⟨rules, found, inner⟩)
    rw [includedDefault_known _ _ names found, if_neg (away.new names), ihInner deeper,
      ihTail away.tail, ownDefault_of_expands inner, Expansion.defaultToken]
  | default plain _ _ _ ih | matching plain _ _ _ ih =>
    rw [includedDefault_plain _ _ plain, ih away.tail]

end StackLexer.RuleSet
