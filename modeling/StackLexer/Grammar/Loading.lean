import StackLexer.Grammar.Expansion
import StackLexer.Grammar.Lexicon

/-! Loading a rule set.
Named states are numbered first, in the order of their names. Then their expanded lists are
compiled rule by rule; a rule that pushes a list written in place gives that list the next number
and has it compiled before the rule after it. A list is compiled once, whoever comes to it, and all
empty lists without room are one. What is done on the way is kept, also when the rule set is refused. -/

namespace StackLexer

namespace RuleSet

def startName : String := "start"

/-- The name that stands for going back, where a state is named that follows. -/
def popName : String := "pop"

def pushKeys (set : RuleSet) : List PushKey := .emptyList :: set.pushPlaces.map .list

theorem keyAt_mem {set : RuleSet} {place : Place} (member : place ∈ set.pushPlaces) :
    set.keyAt place ∈ set.pushKeys := by
  have inside : PushKey.list place ∈ set.pushKeys :=
    List.mem_cons_of_mem _ (List.mem_map_of_mem member)
  unfold keyAt
  split
  · split
    · exact inside
    · exact List.mem_cons_self
  · exact inside

end RuleSet

/-- A lexicon that is being made: the states so far, the numbers of the pushed lists that have
been met, the patterns so far and how far the expansions have come. -/
structure Assembly (set : RuleSet) where
  states : Array Lexicon.State
  opened : List (PushKey × StateId) := []
  patterns : Array Pattern := #[]
  marks : Marks set := {}

namespace Assembly

variable {set : RuleSet}

def openedKeys (a : Assembly set) : List PushKey := a.opened.map Prod.fst

def unopened (a : Assembly set) : List PushKey :=
  set.pushKeys.filter (fun key => !a.openedKeys.contains key)

def addRule (a : Assembly set) (id : StateId) (rule : Lexicon.Rule) (patterns : Array Pattern) :
    Assembly set :=
  { a with
    states := a.states.modify id.index (fun s => { s with rules := s.rules.push rule })
    patterns := patterns }

def nextId (a : Assembly set) : StateId := ⟨a.states.size⟩

def beginState (a : Assembly set) (id : StateId) (reading : a.marks.Reading) : Assembly set :=
  { a with
    states := a.states.modify id.index
      (fun s => { s with defaultToken := reading.expansion.defaultToken })
    marks := reading.marks }

def openList (a : Assembly set) (key : PushKey) (reading : a.marks.Reading) : Assembly set :=
  { a with
    states := a.states.push { defaultToken := reading.expansion.defaultToken }
    opened := (key, a.nextId) :: a.opened
    marks := reading.marks }

theorem not_mem_openedKeys {a : Assembly set} {key : PushKey} (new : a.opened.lookup key = none) :
    key ∉ a.openedKeys := by
  intro present
  obtain ⟨⟨k, id⟩, inside, rfl⟩ := List.mem_map.1 present
  have := List.lookup_eq_none_iff.1 new _ inside
  simp at this

theorem unopened_openList {a : Assembly set} {key : PushKey} (mem : key ∈ set.pushKeys)
    (new : a.opened.lookup key = none) (reading : a.marks.Reading) :
    (a.openList key reading).unopened.length < a.unopened.length := by
  refine length_filter_lt mem (fun k h => ?_) ?_ (by simp [openedKeys, openList])
  · simp only [openedKeys, openList, List.map_cons, List.contains_cons, Bool.not_or,
      Bool.and_eq_true] at h
    exact h.2
  · simpa using not_mem_openedKeys new

@[simp] theorem unopened_addRule (a : Assembly set) (id : StateId) (rule : Lexicon.Rule)
    (patterns : Array Pattern) : (a.addRule id rule patterns).unopened = a.unopened := rfl

structure Having (set : RuleSet) (keys : List PushKey) where
  assembly : Assembly set
  kept : keys ⊆ assembly.openedKeys

def Having.fewer {keys before : List PushKey} (kept : before ⊆ keys) (later : Having set keys) :
    Having set before :=
  ⟨later.assembly, fun _ inside => later.kept (kept inside)⟩

theorem kept_openList (a : Assembly set) (key : PushKey) (reading : a.marks.Reading) :
    a.openedKeys ⊆ (a.openList key reading).openedKeys :=
  fun _ inside => List.mem_cons_of_mem _ inside

theorem Having.unopened_le {a : Assembly set} (later : Having set a.openedKeys) :
    later.assembly.unopened.length ≤ a.unopened.length := by
  simp only [unopened, ← List.countP_eq_length_filter]
  refine List.countP_mono_left (fun key _ h => ?_)
  have absent : key ∉ later.assembly.openedKeys := by simpa using h
  simpa using fun present => absent (later.kept present)

end Assembly

namespace Loading

variable {set : RuleSet}

/-- Where a rule leads: to a state whose number is known, or to a list written in place. -/
inductive Target (entry : Located set) where
  | known (transition : Transition)
  | list (entries : List Rule) (pushed : entry.rule.pushed? = some entries)

def matching (entry : Located set) : Except LoadError (TokenSpec × String) :=
  let malformed (reason : Malformed) : Except LoadError (TokenSpec × String) :=
    .error (.malformed entry.place.label entry.index reason)
  match entry.rule.token, entry.rule.regex with
  | some token, some regex =>
    if entry.rule.next.isSome && entry.rule.push.isSome then malformed .nextAndPush
    else .ok (token, regex)
  | none, some _ => malformed .regexWithoutToken
  | some _, none => malformed .tokenWithoutRegex
  | none, none => malformed .nothingToDo

/-- A token list names one token for each group of the pattern. -/
def checkTokens (entry : Located set) (tokens : TokenSpec) (pattern : Pattern) :
    Except LoadError Unit :=
  match tokens with
  | .single _ => .ok ()
  | .groups kinds =>
    if kinds.isEmpty then .error (.malformed entry.place.label entry.index .emptyTokenList)
    else if kinds.length = pattern.groupCount then .ok ()
    else .error (.groupCount entry.place.label entry.index pattern.source kinds.length
      pattern.groupCount)

def named (entry : Located set) (name : String) : Except LoadError StateId :=
  match set.names.idxOf? name with
  | some index => .ok ⟨index⟩
  | none => .error (.unknownState entry.place.label entry.index name)

def target (entry : Located set) : Except LoadError (Target entry) :=
  match pushed : entry.rule.pushed? with
  | some entries => .ok (.list entries pushed)
  | none =>
    match entry.rule.next, entry.rule.push with
    | some next, _ =>
      if next = RuleSet.popName then .ok (.known .pop)
      else (named entry next).map (fun id => .known (.goto id))
    | none, some (.state name) => (named entry name).map (fun id => .known (.push id))
    | none, _ => .ok (.known .stay)

/-- The number of the pattern of a regex under a case flag and the patterns with it among them.
It is compiled when it is met first. -/
def pattern [RegexEngine] (patterns : Array Pattern) (regex : String) (caseInsensitive : Bool) :
    Except String (Nat × Pattern × Array Pattern) :=
  let same (p : Pattern) : Bool := p.source == regex && p.caseInsensitive == caseInsensitive
  match patterns.findIdx? same, patterns.find? same with
  | some slot, some found => .ok (slot, found, patterns)
  | _, _ => do
    let made ← Pattern.compile regex caseInsensitive
    .ok (patterns.size, made, patterns.push made)

/-- A rule that has passed its checks, but for the number of the list it may push, and the
patterns with its own among them. -/
structure Checked (entry : Located set) where
  slot : Nat
  pattern : Pattern
  tokens : TokenSpec
  target : Target entry
  patterns : Array Pattern

def check [RegexEngine] (patterns : Array Pattern) (entry : Located set) :
    Except LoadError (Checked entry) := do
  let (tokens, regex) ← matching entry
  match pattern patterns regex (entry.rule.caseInsensitive.getD false) with
  | .error fault => .error (.invalidRegex entry.place.label entry.index regex fault)
  | .ok (slot, pattern, patterns) =>
    checkTokens entry tokens pattern
    let target ← target entry
    .ok { slot, pattern, tokens, target, patterns }

def Checked.rule {entry : Located set} (c : Checked entry) (t : Transition) : Lexicon.Rule :=
  ⟨c.slot, c.pattern, c.tokens, t⟩

theorem listAt?_pushed (entry : Located set) {entries : List Rule}
    (pushed : entry.rule.pushed? = some entries) :
    set.listAt? (entry.place.push entry.index) = some entries := by
  have written := entry.written
  cases list : set.listAt? entry.place with
  | none => simp [list] at written
  | some rules =>
    simp only [list, Option.bind_some] at written
    exact RuleSet.listAt?_push list written pushed

theorem written_pushed (entry : Located set) {entries : List Rule}
    (pushed : entry.rule.pushed? = some entries) :
    (set.listAt? (entry.place.push entry.index)).map (List.drop 0) = some entries := by
  simp [listAt?_pushed entry pushed]

theorem keyAt_mem_pushKeys (entry : Located set) {entries : List Rule}
    (pushed : entry.rule.pushed? = some entries) :
    set.keyAt (entry.place.push entry.index) ∈ set.pushKeys :=
  RuleSet.keyAt_mem (RuleSet.mem_pushPlaces (listAt?_pushed entry pushed))

/-- Compiles rules into a given state. The levels are the lists that these rules are pushed within. -/
def compileRules [RegexEngine] (levels : List PushKey) (a : Assembly set) (id : StateId)
    (rules : List (Located set)) :
    List Deed × Except LoadError (Assembly.Having set a.openedKeys) :=
  match rules with
  | [] => ([], .ok ⟨a, fun _ inside => inside⟩)
  | entry :: rest =>
    match check a.patterns entry with
    | .error e => ([], .error e)
    | .ok c =>
      match c.target with
      | .known t => compileRules levels (a.addRule id (c.rule t) c.patterns) id rest
      | .list entries pushed =>
        let place := entry.place.push entry.index
        let key := set.keyAt place
        match _new : a.opened.lookup key with
        | some target => compileRules levels (a.addRule id (c.rule (.push target)) c.patterns) id rest
        | none =>
          let opening : List Deed := [.opens levels key, .reads a.marks.path place]
          match a.marks.readFrom place 0 entries (written_pushed entry pushed) with
          | (deeds, .error e) => (opening ++ deeds, .error e)
          | (deeds, .ok reading) =>
            let begun := (a.openList key reading).addRule id (c.rule (.push a.nextId)) c.patterns
            match compileRules (levels ++ [key]) begun a.nextId reading.expansion.rules with
            | (inner, .error e) => (opening ++ deeds ++ inner, .error e)
            | (inner, .ok later) =>
              let (others, result) := compileRules levels later.assembly id rest
              (opening ++ deeds ++ inner ++ others,
                result.map (.fewer (fun _ inside => later.kept (a.kept_openList key reading inside))))
termination_by (a.unopened.length, rules.length)
decreasing_by
  · exact Prod.Lex.right _ (Nat.lt_succ_self _)
  · exact Prod.Lex.right _ (Nat.lt_succ_self _)
  · exact Prod.Lex.left _ _
      (Assembly.unopened_openList (keyAt_mem_pushKeys entry pushed) _new reading)
  · exact Prod.Lex.left _ _ (Nat.lt_of_le_of_lt later.unopened_le
      (Assembly.unopened_openList (keyAt_mem_pushKeys entry pushed) _new reading))

def compileStates [RegexEngine] (a : Assembly set) (index : Nat) :
    List String → List Deed × Except LoadError (Assembly set)
  | [] => ([], .ok a)
  | name :: rest =>
    match a.marks.readState ⟨name, []⟩ name with
    | (deeds, .error e) => (deeds, .error e)
    | (deeds, .ok reading) =>
      let rules := reading.expansion.rules
      match compileRules [] (a.beginState ⟨index⟩ reading) ⟨index⟩ rules with
      | (inner, .error e) => (deeds ++ inner, .error e)
      | (inner, .ok later) =>
        let (others, result) := compileStates later.assembly (index + 1) rest
        (deeds ++ inner ++ .tells (.stateCompiled name rules.length) :: others, result)

end Loading

namespace RuleSet

def readJson (text : String) : Except LoadError RuleSet :=
  (ofJsonText text).mapError (fun e => .parse e.message)

def blank (set : RuleSet) : Assembly set :=
  { states := (set.names.map (fun name => ({ name := some name } : Lexicon.State))).toArray }

/-- Loads a rule set, with what is done on the way. -/
def loading [RegexEngine] (set : RuleSet) : List Deed × Except LoadError Lexicon :=
  match set.names.idxOf? startName with
  | none => ([], .error (.missingStart startName))
  | some start =>
    match Loading.compileStates set.blank 0 set.names with
    | (deeds, .error e) => (deeds, .error e)
    | (deeds, .ok a) =>
      (deeds ++ [.tells (.ruleSetLoaded a.states.size set.names.length a.patterns.size)],
        .ok { states := a.states, names := set.names, start := ⟨start⟩, patterns := a.patterns })

/-- Loads a rule set, with the events on the way. Those before a refusal are told too. -/
def load [RegexEngine] (set : RuleSet) : List Event × Except LoadError Lexicon :=
  (set.loading.1.filterMap Deed.event?, set.loading.2)

def loadRead [RegexEngine] : Except LoadError RuleSet → List Event × Except LoadError Lexicon
  | .error e => ([], .error e)
  | .ok set => set.load

end RuleSet

end StackLexer
