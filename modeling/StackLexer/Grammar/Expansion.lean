import StackLexer.Grammar.LoadError
import StackLexer.Grammar.Place
import StackLexer.Lexing.Event

/-! Expanding the includes of a list.
An entry that includes a state is replaced by the rules of that state, with the includes of these
replaced in turn, and entries that give a default token are taken out. A named state is untouched, underway
or done, and what has been worked out for it is kept for all who include it. A list that an entry pushes is
not looked into; it is expanded on its own. -/

namespace StackLexer

structure Located (set : RuleSet) where
  place : Place
  index : Nat
  rule : Rule
  written : (set.listAt? place).bind (·[index]?) = some rule

/-- The rules of a list with its default tokens: the first of its own and the first of the states
it includes. -/
structure Expansion (set : RuleSet) where
  rules : List (Located set) := []
  own : Option String := none
  inherited : Option String := none

/-- An own default token wins over those of included states. -/
def Expansion.defaultToken {set : RuleSet} (e : Expansion set) : Option String :=
  e.own.or e.inherited

namespace Rule

def includesMore (rule : Rule) : Bool :=
  rule.token.isSome || rule.regex.isSome || rule.next.isSome || rule.push.isSome ||
    rule.defaultToken.isSome || rule.caseInsensitive.isSome

def defaultsMore (rule : Rule) : Bool :=
  rule.token.isSome || rule.regex.isSome || rule.next.isSome || rule.push.isSome ||
    rule.caseInsensitive.isSome

end Rule

inductive Deed where
  /-- The entries of a list are gone through, while the states on a path are underway. -/
  | reads (path : List String) (place : Place)
  | returns (path : List String) (name : String)
  /-- A pushed list is given a number. The levels are the lists around it whose rules are not all
  compiled yet. -/
  | opens (levels : List PushKey) (key : PushKey)
  | tells (event : Event)
  deriving DecidableEq, Repr

def Deed.event? : Deed → Option Event
  | tells event => some event
  | _ => none

inductive Mark (set : RuleSet) where
  | untouched
  | underway
  | done (expansion : Expansion set)

def Mark.isUntouched {set : RuleSet} : Mark set → Bool
  | untouched => true
  | _ => false

/-- How far the states have come, latest first, and the path of those that are underway, outermost
first. -/
structure Marks (set : RuleSet) where
  touched : List (String × Mark set) := []
  path : List String := []

theorem length_filter_lt {α : Type} {p q : α → Bool} {l : List α} {a : α} (mem : a ∈ l)
    (imp : ∀ x, q x = true → p x = true) (holds : p a = true) (fails : q a = false) :
    (l.filter q).length < (l.filter p).length := by
  induction l with
  | nil => simp at mem
  | cons x rest ih =>
    have le : (rest.filter q).length ≤ (rest.filter p).length := by
      simp only [← List.countP_eq_length_filter]
      exact List.countP_mono_left (fun x _ => imp x)
    rcases List.mem_cons.1 mem with rfl | inside
    · simp [holds, fails]
      omega
    · have := ih inside
      by_cases hq : q x
      · simp [hq, imp x hq, this]
      · by_cases hp : p x <;> simp [hq, hp] <;> omega

namespace RuleSet

variable {set : RuleSet} {place : Place} {index : Nat} {rule : Rule} {rest : List Rule}

theorem mem_names {name : String} {rules : List Rule} (h : set.get? name = some rules) :
    name ∈ set.names := by
  obtain ⟨before, after, eq, _⟩ := List.lookup_eq_some_iff.1 h
  simp [names, Dictionary.names, eq]

theorem written_state {name : String} {rules : List Rule} (found : set.get? name = some rules) :
    (set.listAt? ⟨name, []⟩).map (List.drop 0) = some rules := by
  simp [listAt?, found, Rule.listAt?]

theorem written_tail (written : (set.listAt? place).map (List.drop index) = some (rule :: rest)) :
    (set.listAt? place).map (List.drop (index + 1)) = some rest := by
  obtain ⟨rules, at_, same⟩ := Option.map_eq_some_iff.mp written
  rw [at_, Option.map_some, ← List.drop_drop, same]
  rfl

theorem written_head (written : (set.listAt? place).map (List.drop index) = some (rule :: rest)) :
    (set.listAt? place).bind (·[index]?) = some rule := by
  obtain ⟨rules, found, same⟩ := Option.map_eq_some_iff.mp written
  have first : (rules.drop index)[0]? = some rule := by rw [same]; rfl
  rw [found, Option.bind_some]
  simpa using first

end RuleSet

namespace Marks

variable {set : RuleSet}

def mark (m : Marks set) (name : String) : Mark set := (m.touched.lookup name).getD .untouched

def begin (m : Marks set) (name : String) : Marks set :=
  ⟨(name, .underway) :: m.touched, m.path ++ [name]⟩

def finish (m : Marks set) (name : String) (e : Expansion set) : Marks set :=
  ⟨(name, .done e) :: m.touched, m.path.dropLast⟩

def untouched (m : Marks set) : List String :=
  set.names.filter (fun name => (m.mark name).isUntouched)

theorem mark_begin (m : Marks set) (name other : String) :
    (m.begin name).mark other = if other = name then .underway else m.mark other := by
  by_cases same : other = name
  · simp [mark, begin, same]
  · simp [mark, begin, same, List.lookup_cons, beq_eq_false_iff_ne.mpr same]

theorem mark_finish (m : Marks set) (name other : String) (e : Expansion set) :
    (m.finish name e).mark other = if other = name then .done e else m.mark other := by
  by_cases same : other = name
  · simp [mark, finish, same]
  · simp [mark, finish, same, List.lookup_cons, beq_eq_false_iff_ne.mpr same]

def Within (m later : Marks set) : Prop :=
  ∀ name, (later.mark name).isUntouched → (m.mark name).isUntouched

theorem Within.refl (m : Marks set) : m.Within m := fun _ h => h

theorem Within.trans {m between later : Marks set} (first : m.Within between)
    (second : between.Within later) : m.Within later := fun name h => first name (second name h)

theorem within_begin (m : Marks set) (name : String) : m.Within (m.begin name) := by
  intro other h
  rw [mark_begin] at h
  split at h
  · simp [Mark.isUntouched] at h
  · exact h

theorem within_finish (m : Marks set) (name : String) (e : Expansion set) :
    m.Within (m.finish name e) := by
  intro other h
  rw [mark_finish] at h
  split at h
  · simp [Mark.isUntouched] at h
  · exact h

theorem untouched_le {m later : Marks set} (within : m.Within later) :
    later.untouched.length ≤ m.untouched.length := by
  simp only [untouched, ← List.countP_eq_length_filter]
  exact List.countP_mono_left (fun name _ => within name)

theorem untouched_begin {m : Marks set} {name : String} {rules : List Rule}
    (found : set.get? name = some rules) (fresh : m.mark name = .untouched) :
    (m.begin name).untouched.length < m.untouched.length := by
  refine length_filter_lt (RuleSet.mem_names found) (m.within_begin name) ?_ ?_
  · simp [fresh, Mark.isUntouched]
  · simp [mark_begin, Mark.isUntouched]

structure Reading (m : Marks set) where
  expansion : Expansion set
  marks : Marks set
  within : m.Within marks

def Reading.after {m between : Marks set} (within : m.Within between) (r : Reading between)
    (change : Expansion set → Expansion set) : Reading m :=
  ⟨change r.expansion, r.marks, within.trans r.within⟩

def Reading.finish {m : Marks set} {name : String} (r : Reading (m.begin name)) : Reading m :=
  ⟨r.expansion, r.marks.finish name r.expansion,
    ((m.within_begin name).trans r.within).trans (r.marks.within_finish name r.expansion)⟩

theorem lex_of_le {m between : Marks set} (within : m.Within between) {i j : Nat} (less : i < j) :
    Prod.Lex (· < ·) (· < ·) (between.untouched.length, i) (m.untouched.length, j) := by
  rcases Nat.lt_or_eq_of_le (untouched_le within) with fewer | same
  · exact .left _ _ fewer
  · rw [same]
    exact .right _ less

mutual

/-- The expansion of a named state, for a list that asks. A state that is underway is looked up on the
path. -/
def readState (m : Marks set) (includer : Place) (name : String) :
    List Deed × Except LoadError (Reading m) :=
  match _found : set.get? name with
  | none => ([], .error (.unknownInclude includer.label name))
  | some rules =>
    match _fresh : m.mark name with
    | .done e => ([], .ok ⟨e, m, .refl m⟩)
    | .underway =>
      -- A state that is underway stands on the path, so that the default is not taken.
      let first := (m.path.idxOf? name).getD 0
      ([.returns m.path name], .error (.circularInclude (m.path.drop first ++ [name])))
    | .untouched =>
      let (deeds, result) :=
        readFrom (m.begin name) ⟨name, []⟩ 0 rules (RuleSet.written_state _found)
      (.reads (m.begin name).path ⟨name, []⟩ :: deeds, result.map Reading.finish)
termination_by (m.untouched.length, 0)
decreasing_by exact Prod.Lex.left _ _ (untouched_begin _found _fresh)

def readFrom (m : Marks set) (place : Place) (index : Nat) (rest : List Rule)
    (written : (set.listAt? place).map (List.drop index) = some rest) :
    List Deed × Except LoadError (Reading m) :=
  match rest with
  | [] => ([], .ok ⟨{}, m, .refl m⟩)
  | rule :: rest =>
    match rule.includes with
    | some target =>
      if rule.includesMore then ([], .error (.malformed place.label index .includeWithOthers))
      else
        match readState m place target with
        | (deeds, .error e) => (deeds, .error e)
        | (deeds, .ok first) =>
          let (more, result) :=
            readFrom first.marks place (index + 1) rest (RuleSet.written_tail written)
          (deeds ++ more, result.map (fun r => r.after first.within (fun e => { e with
            rules := first.expansion.rules ++ e.rules
            inherited := first.expansion.defaultToken.or e.inherited })))
    | none =>
      match rule.defaultToken with
      | some kind =>
        if rule.defaultsMore then ([], .error (.malformed place.label index .defaultWithMatching))
        else
          let (deeds, result) := readFrom m place (index + 1) rest (RuleSet.written_tail written)
          (deeds, result.map (fun r => r.after (.refl m) (fun e => { e with own := some kind })))
      | none =>
        let (deeds, result) := readFrom m place (index + 1) rest (RuleSet.written_tail written)
        (deeds, result.map (fun r => r.after (.refl m) (fun e => { e with
          rules := ⟨place, index, rule, RuleSet.written_head written⟩ :: e.rules })))
termination_by (m.untouched.length, rest.length + 1)
decreasing_by
  · exact Prod.Lex.right _ (by simp)
  · exact lex_of_le first.within (by simp)
  · exact Prod.Lex.right _ (by simp)
  · exact Prod.Lex.right _ (by simp)

end

end Marks

end StackLexer
