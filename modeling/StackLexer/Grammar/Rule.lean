import StackLexer.Text.Dictionary

/-! Rule sets as their authors write them.
A rule set gives each state a list of entries. Nothing is checked here: an entry may hold any
combination of fields. -/

namespace StackLexer

/-- The tokens of a match: one for all of it, or one for each capturing group. -/
inductive TokenSpec where
  | single (kind : String)
  | groups (kinds : List String)
  deriving DecidableEq, Repr, Inhabited

mutual

structure Rule where
  token : Option TokenSpec := none
  regex : Option String := none
  next : Option String := none
  push : Option Push := none
  defaultToken : Option String := none
  /-- The state whose entries the entry stands for. -/
  includes : Option String := none
  caseInsensitive : Option Bool := none
  comment : Option String := none

inductive Push where
  | rules (entries : List Rule)
  | state (name : String)

end

deriving instance Repr, BEq for Rule, Push

instance : Inhabited Rule := ⟨{}⟩

namespace Rule

def single (kind regex : String) : Rule := { token := some (.single kind), regex := some regex }

def groups (kinds : List String) (regex : String) : Rule :=
  { token := some (.groups kinds), regex := some regex }

def including (state : String) : Rule := { includes := some state }

def default (kind : String) : Rule := { defaultToken := some kind }

def withNext (rule : Rule) (state : String) : Rule := { rule with next := some state }

def withPush (rule : Rule) (entries : List Rule) : Rule := { rule with push := some (.rules entries) }

def withPushState (rule : Rule) (state : String) : Rule :=
  { rule with push := some (.state state) }

def ignoringCase (rule : Rule) : Rule := { rule with caseInsensitive := some true }

def isDefaultToken (rule : Rule) : Bool := rule.defaultToken.isSome

def pushed? (rule : Rule) : Option (List Rule) :=
  match rule.push with
  | some (.rules entries) => some entries
  | _ => none

end Rule

/-- A list, by the state in which it is written and the entries that lead to it. -/
structure Place where
  state : String
  path : List Nat := []
  deriving DecidableEq, Repr, Inhabited

namespace Place

def push (p : Place) (index : Nat) : Place := { p with path := p.path ++ [index] }

def labelOf (name : String) : List Nat → String
  | [] => name
  | index :: path => labelOf (name ++ "/push@" ++ toString index) path

def label (p : Place) : String := labelOf p.state p.path

end Place

structure RuleSet where
  states : Dictionary (List Rule) := {}
  /-- The pushed lists that have room for entries but none in them. They are told apart from one another,
  which empty lists without room are not. -/
  reserved : List Place := []

/-- Room for entries does not tell rule sets apart. -/
instance : BEq RuleSet := ⟨fun a b => a.states == b.states⟩

def RuleSet.empty : RuleSet := {}

instance : Inhabited RuleSet := ⟨.empty⟩

namespace RuleSet

def withState (set : RuleSet) (name : String) (rules : List Rule) : RuleSet :=
  { states := set.states.insert name rules
    reserved := set.reserved.filter (fun place => place.state != name) }

def withRoom (set : RuleSet) (place : Place) : RuleSet :=
  { set with reserved := place :: set.reserved }

def names (set : RuleSet) : List String := set.states.names

def get? (set : RuleSet) (name : String) : Option (List Rule) := set.states.get? name

def contains (set : RuleSet) (name : String) : Bool := set.states.contains name

end RuleSet

end StackLexer
