import StackLexer.Grammar.Loading
import StackLexer.Proofs.Grammar.Marks

/-! Compiling as an agenda.
The rules that are still to be compiled, over all the lists that have been begun, are one agenda, each with
the state it goes into. What opens a list puts the rules of that list before the others. This leaves out the
deeds and says once what can happen to the first rule. -/

namespace StackLexer

namespace Loading

variable {set : RuleSet} [RegexEngine]

inductive Compiles : Assembly set → List (StateId × Located set) →
    Except LoadError (Assembly set) → Prop
  | done (a : Assembly set) : Compiles a [] (.ok a)
  | refused {a : Assembly set} {id : StateId} {entry : Located set}
      {rest : List (StateId × Located set)} {fault : LoadError}
      (failed : check a.patterns entry = .error fault) :
      Compiles a ((id, entry) :: rest) (.error fault)
  | known {a : Assembly set} {id : StateId} {entry : Located set}
      {rest : List (StateId × Located set)} {outcome : Except LoadError (Assembly set)}
      {c : Checked entry} {t : Transition} (checked : check a.patterns entry = .ok c)
      (leads : c.target = .known t)
      (others : Compiles (a.addRule id (c.rule t) c.patterns) rest outcome) :
      Compiles a ((id, entry) :: rest) outcome
  | met {a : Assembly set} {id target : StateId} {entry : Located set}
      {rest : List (StateId × Located set)} {outcome : Except LoadError (Assembly set)}
      {c : Checked entry} {entries : List Rule} {pushed : entry.rule.pushed? = some entries}
      (checked : check a.patterns entry = .ok c) (leads : c.target = .list entries pushed)
      (number : a.opened.lookup (set.keyAt (entry.place.push entry.index)) = some target)
      (others : Compiles (a.addRule id (c.rule (.push target)) c.patterns) rest outcome) :
      Compiles a ((id, entry) :: rest) outcome
  | unread {a : Assembly set} {id : StateId} {entry : Located set}
      {rest : List (StateId × Located set)} {c : Checked entry} {entries : List Rule}
      {pushed : entry.rule.pushed? = some entries} {fault : LoadError}
      (checked : check a.patterns entry = .ok c) (leads : c.target = .list entries pushed)
      (new : a.opened.lookup (set.keyAt (entry.place.push entry.index)) = none)
      (failed : (a.marks.readFrom (entry.place.push entry.index) 0 entries
        (written_pushed entry pushed)).2 = .error fault) :
      Compiles a ((id, entry) :: rest) (.error fault)
  | opens {a : Assembly set} {id : StateId} {entry : Located set}
      {rest : List (StateId × Located set)} {outcome : Except LoadError (Assembly set)}
      {c : Checked entry} {entries : List Rule} {pushed : entry.rule.pushed? = some entries}
      {reading : a.marks.Reading} (checked : check a.patterns entry = .ok c)
      (leads : c.target = .list entries pushed)
      (new : a.opened.lookup (set.keyAt (entry.place.push entry.index)) = none)
      (read : (a.marks.readFrom (entry.place.push entry.index) 0 entries
        (written_pushed entry pushed)).2 = .ok reading)
      (others : Compiles
        ((a.openList (set.keyAt (entry.place.push entry.index)) reading).addRule id
          (c.rule (.push a.nextId)) c.patterns)
        (reading.expansion.rules.map (fun r => (a.nextId, r)) ++ rest) outcome) :
      Compiles a ((id, entry) :: rest) outcome

def After (more : List (StateId × Located set)) (outcome : Except LoadError (Assembly set))
    {keys : List PushKey} : Except LoadError (Assembly.Having set keys) → Prop
  | .error fault => outcome = .error fault
  | .ok later => Compiles later.assembly more outcome

theorem After.fewer {more : List (StateId × Located set)} {outcome : Except LoadError (Assembly set)}
    {keys before : List PushKey} {kept : before ⊆ keys}
    {result : Except LoadError (Assembly.Having set keys)}
    (after : After more outcome (result.map (Assembly.Having.fewer kept))) :
    After more outcome result := by
  cases result <;> exact after

theorem compileRules_compiles {levels : List PushKey} {a : Assembly set} {id : StateId}
    {rules : List (Located set)} {more : List (StateId × Located set)}
    {outcome : Except LoadError (Assembly set)}
    (after : After more outcome (compileRules levels a id rules).2) :
    Compiles a (rules.map (fun r => (id, r)) ++ more) outcome := by
  fun_induction compileRules levels a id rules generalizing more outcome with
  | case1 => exact after
  | case2 levels a id entry rest fault failed =>
    obtain rfl : outcome = _ := after
    exact .refused failed
  | case3 levels a id entry rest c checked t leads ih => exact .known checked leads (ih after)
  | case4 levels a id entry rest c checked entries pushed leads _ _ target =>
    rename_i number ih
    exact .met checked leads number (ih after)
  | case5 levels a id entry rest c checked entries pushed leads _ _ new _ deeds =>
    rename_i fault failed
    obtain rfl : outcome = _ := after
    exact .unread checked leads new (congrArg Prod.snd failed)
  | case6 levels a id entry rest c checked entries pushed leads _ _ new _ deeds reading read =>
    rename_i inner fault failed ih
    obtain rfl : outcome = _ := after
    exact .opens checked leads new (congrArg Prod.snd read) (ih (failed ▸ rfl))
  | case7 levels a id entry rest c checked entries pushed leads _ _ new _ deeds reading read =>
    rename_i inner later compiled others result remaining deeper ih
    -- What is left to do after the opened list is what is left after the entry.
    rw [remaining] at ih
    rw [compiled] at deeper
    exact .opens checked leads new (congrArg Prod.snd read) (deeper (ih after.fewer))

theorem compileRules_compiles_all (levels : List PushKey) {a : Assembly set} {id : StateId}
    {rules : List (Located set)} {outcome : Except LoadError (Assembly set)}
    (after : After [] outcome (compileRules levels a id rules).2) :
    Compiles a (rules.map (fun r => (id, r))) outcome := by
  simpa using compileRules_compiles after

inductive Builds : Assembly set → Nat → List String → Except LoadError (Assembly set) → Prop
  | done (a : Assembly set) (index : Nat) : Builds a index [] (.ok a)
  | unread {a : Assembly set} {index : Nat} {name : String} {rest : List String} {fault : LoadError}
      (failed : (a.marks.readState ⟨name, []⟩ name).2 = .error fault) :
      Builds a index (name :: rest) (.error fault)
  | refused {a : Assembly set} {index : Nat} {name : String} {rest : List String}
      {reading : a.marks.Reading} {fault : LoadError}
      (read : (a.marks.readState ⟨name, []⟩ name).2 = .ok reading)
      (failed : Compiles (a.beginState ⟨index⟩ reading)
        (reading.expansion.rules.map (fun r => (⟨index⟩, r))) (.error fault)) :
      Builds a index (name :: rest) (.error fault)
  | next {a b : Assembly set} {index : Nat} {name : String} {rest : List String}
      {reading : a.marks.Reading} {outcome : Except LoadError (Assembly set)}
      (read : (a.marks.readState ⟨name, []⟩ name).2 = .ok reading)
      (compiled : Compiles (a.beginState ⟨index⟩ reading)
        (reading.expansion.rules.map (fun r => (⟨index⟩, r))) (.ok b))
      (others : Builds b (index + 1) rest outcome) : Builds a index (name :: rest) outcome

theorem compileStates_builds (a : Assembly set) (index : Nat) (names : List String) :
    Builds a index names (compileStates a index names).2 := by
  fun_induction compileStates a index names with
  | case1 => exact .done _ _
  | case2 a index name rest deeds fault failed => exact .unread (congrArg Prod.snd failed)
  | case3 a index name rest deeds reading read _ inner =>
    rename_i fault failed
    refine .refused (congrArg Prod.snd read) (compileRules_compiles_all [] ?_)
    rw [failed]
    rfl
  | case4 a index name rest deeds reading read _ inner later compiled others result =>
    rename_i remaining ih
    rw [remaining] at ih
    refine .next (congrArg Prod.snd read) (compileRules_compiles_all [] ?_) ih
    rw [compiled]
    exact .done later.assembly

end Loading

end StackLexer
