import StackLexer.Proofs.Grammar.Walk

/-! What is remembered while includes are expanded.
An expansion is worked out once for each state and kept for all who ask for it again. That cannot be told
from the answers: whatever was asked for before and whoever asks, a state has the expansion that its
entries have as they are written, or none. -/

namespace StackLexer

namespace Located

def entry {set : RuleSet} (l : Located set) : Place × Nat × Rule := (l.place, l.index, l.rule)

end Located

/-- A question about a list: the expansion of a named state, for a list that includes it, or that of a
list that is written at a place. -/
inductive Ask (set : RuleSet) where
  | state (includer : Place) (name : String)
  | list (place : Place) (rules : List Rule) (written : set.listAt? place = some rules)

namespace RuleSet

variable {set : RuleSet}

def ask (set : RuleSet) (m : Marks set) : Ask set → Except LoadError (Expansion set × Marks set)
  | .state includer name => (m.readState includer name).2.map (fun r => (r.expansion, r.marks))
  | .list place rules written =>
    (m.readFrom place 0 rules (by simp [written])).2.map (fun r => (r.expansion, r.marks))

def marksAfter (set : RuleSet) (m : Marks set) : List (Ask set) → Except LoadError (Marks set)
  | [] => .ok m
  | a :: rest =>
    match set.ask m a with
    | .error e => .error e
    | .ok (_, m) => set.marksAfter m rest

def defaultOf (set : RuleSet) (name : String) : Option String :=
  let rules := set.entriesAt ⟨name, []⟩
  (ownDefault rules).or (set.includedDefault [] rules)

/-- What an entry at a place stands for: all that the state it includes stands for, nothing if it gives a
default token, and else itself. -/
def spelledOut (set : RuleSet) (place : Place) (index : Nat) (rule : Rule) :
    List (Place × Nat × Rule) :=
  match rule.includes with
  | some target => set.spliced ⟨target, []⟩
  | none => if rule.defaultToken.isSome then [] else [(place, index, rule)]

/-- An expansion is that of a named state as its entries are written, with nothing remembered. -/
structure AsWritten (set : RuleSet) (name : String) (rules : List Rule) (e : Expansion set) : Prop where
  expands : set.Expands ⟨name, []⟩ 0 rules e
  entries : e.rules.map Located.entry = set.spliced ⟨name, []⟩
  inPlace : set.spliced ⟨name, []⟩ =
    rules.zipIdx.flatMap (fun (rule, index) => set.spelledOut ⟨name, []⟩ index rule)
  default : e.defaultToken = set.defaultOf name
  firstDefault : set.defaultOf name = (rules.findSome? Rule.defaultToken).or
    (rules.findSome? (fun rule => rule.includes.bind set.defaultOf))
  /-- Each entry comes with the name of the state in whose list it is written, and its index there. -/
  owners : ∀ l ∈ e.rules, ∃ owner, l.place = ⟨owner, []⟩ ∧
    (set.get? owner).bind (·[l.index]?) = some l.rule

theorem ask_sound {m after : Marks set} {a : Ask set} {e : Expansion set} (sound : m.Sound [])
    (answered : set.ask m a = .ok (e, after)) : after.Sound [] := by
  cases a with
  | state includer name =>
    obtain ⟨r, read, same⟩ := Loading.map_ok answered
    exact (Prod.mk.inj same).2 ▸ (Marks.readState_expands sound read).2
  | list place rules written =>
    obtain ⟨r, read, same⟩ := Loading.map_ok answered
    exact (Prod.mk.inj same).2 ▸ (Marks.readFrom_expands sound read).2

theorem marksAfter_sound {m after : Marks set} {asks : List (Ask set)} (sound : m.Sound [])
    (answered : set.marksAfter m asks = .ok after) : after.Sound [] := by
  induction asks generalizing m with
  | nil =>
    obtain rfl := Except.ok.inj answered
    exact sound
  | cons a rest ih =>
    rw [marksAfter] at answered
    split at answered
    · simp at answered
    · rename_i e middle first
      exact ih (ask_sound sound first) answered

theorem readState_isOk_of {m : Marks set} {path : List String} {name : String} {rules : List Rule}
    (sound : m.Sound path) (found : set.get? name = some rules) (new : name ∉ path)
    (list : m.mark name = .untouched → ∀ written,
      ∃ r, ((m.begin name).readFrom ⟨name, []⟩ 0 rules written).2 = .ok r) (includer : Place) :
    ∃ r, (m.readState includer name).2 = .ok r := by
  cases mark : m.mark name with
  | done e => exact ⟨_, by rw [Marks.readState_done found mark]⟩
  | underway => exact absurd ((sound.underway name).mp mark) new
  | untouched =>
    obtain ⟨r, read⟩ := list mark (written_state found)
    rw [Marks.readState_untouched found mark]
    exact ⟨r.finish, congrArg (Except.map Marks.Reading.finish) read⟩

theorem readFrom_isOk_of_expands {place : Place} {index : Nat} {rest : List Rule} {e : Expansion set}
    (expands : set.Expands place index rest e) {path : List String} {m : Marks set}
    (sound : m.Sound path) (away : set.Away path rest)
    (written : (set.listAt? place).map (List.drop index) = some rest) :
    ∃ r, (m.readFrom place index rest written).2 = .ok r := by
  induction expands generalizing path m with
  | nil => exact ⟨_, by rw [Marks.readFrom]⟩
  | including names alone found inner tail ihInner ihTail =>
    have at_ := expandsAt_state.mpr ⟨_, found, inner⟩
    obtain ⟨first, read⟩ := readState_isOk_of sound found (away.new names)
      (fun untouched => ihInner (sound.begin untouched) (away.enter names found at_)) _
    have between := (Marks.readState_expands sound read).2
    obtain ⟨last, others⟩ := ihTail between away.tail (written_tail written)
    exact ⟨_, by rw [Marks.outcome_including names alone, read, Except.bind, others]; rfl⟩
  | default plain gives alone _ ih =>
    obtain ⟨last, others⟩ := ih sound away.tail (written_tail written)
    rw [Marks.readFrom_default plain gives alone]
    exact ⟨_, congrArg (Except.map _) others⟩
  | matching plain gives here _ ih =>
    obtain ⟨last, others⟩ := ih sound away.tail (written_tail written)
    rw [Marks.readFrom_matching plain gives]
    exact ⟨_, congrArg (Except.map _) others⟩

/-- What a state stands for is given to all who ask, whatever has been asked for before. -/
theorem ExpandsAt.answered {name : String} {e : Expansion set} (expands : set.ExpandsAt ⟨name, []⟩ e)
    {m : Marks set} (sound : m.Sound []) (includer : Place) :
    ∃ r, (m.readState includer name).2 = .ok r ∧ r.expansion = e := by
  obtain ⟨rules, found, inner⟩ := expandsAt_state.mp expands
  have away : set.Away [name] rules := (away_nil set [Rule.including name]).enter rfl found expands
  obtain ⟨r, read⟩ := readState_isOk_of sound found (by simp)
    (fun untouched => readFrom_isOk_of_expands inner (sound.begin untouched) away) includer
  exact ⟨r, read, (Marks.readState_expands sound read).1.unique expands⟩

theorem entriesAt_state {name : String} {rules : List Rule} (found : set.get? name = some rules) :
    set.entriesAt ⟨name, []⟩ = rules := by
  rw [entriesAt, listAt?_state, found, Option.getD_some]

theorem splice_eq_flatMap {place : Place} {index : Nat} {rest : List Rule} {e : Expansion set}
    (expands : set.Expands place index rest e) :
    set.splice [] place index rest =
      (rest.zipIdx index).flatMap (fun (rule, i) => set.spelledOut place i rule) := by
  induction expands with
  | nil =>
    rw [splice]
    rfl
  | including names alone found inner tail _ ih =>
    rw [splice_including (.including names alone found inner tail) names found, ih, List.zipIdx_cons,
      List.flatMap_cons]
    simp only [spelledOut, names, spliced, entriesAt_state found]
  | default plain gives _ _ ih | matching plain gives _ _ ih =>
    rw [splice_plain _ _ _ _ plain, ih, List.zipIdx_cons, List.flatMap_cons]
    simp [spelledOut, plain, gives]

theorem defaultOf_of_expands {name : String} {rules : List Rule} {e : Expansion set}
    (found : set.get? name = some rules) (expands : set.Expands ⟨name, []⟩ 0 rules e) :
    set.defaultOf name = e.defaultToken := by
  simp only [defaultOf, entriesAt_state found, ownDefault_of_expands expands,
    includedDefault_of_expands expands (away_nil set _), Expansion.defaultToken]

theorem inherited_eq_findSome? {place : Place} {index : Nat} {rest : List Rule} {e : Expansion set}
    (expands : set.Expands place index rest e) :
    e.inherited = rest.findSome? (fun rule => rule.includes.bind set.defaultOf) := by
  induction expands with
  | nil => rfl
  | including names _ found inner _ _ ih =>
    rw [List.findSome?_cons, names, Option.bind_some, defaultOf_of_expands found inner, ← ih]
    cases Expansion.defaultToken _ <;> rfl
  | default plain _ _ _ ih | matching plain _ _ _ ih =>
    rw [List.findSome?_cons, plain]
    exact ih

theorem Expands.in_state {place : Place} {index : Nat} {rest : List Rule} {e : Expansion set}
    (expands : set.Expands place index rest e) (named : place.path = []) :
    ∀ l ∈ e.rules, l.place.path = [] := by
  induction expands with
  | nil => simp
  | including _ _ _ _ _ ihInner ihTail =>
    intro l member
    rcases List.mem_append.mp member with member | member
    · exact ihInner rfl l member
    · exact ihTail named l member
  | default _ _ _ _ ih => exact ih named
  | matching _ _ _ _ ih =>
    intro l member
    rcases List.mem_cons.mp member with rfl | member
    · exact named
    · exact ih named l member

theorem asWritten_of_expands {name : String} {rules : List Rule} {e : Expansion set}
    (found : set.get? name = some rules) (expands : set.Expands ⟨name, []⟩ 0 rules e) :
    set.AsWritten name rules e where
  expands := expands
  entries := by
    rw [spliced, entriesAt_state found]
    exact (splice_of_expands expands (away_nil set _)).symm
  inPlace := by
    rw [spliced, entriesAt_state found]
    exact splice_eq_flatMap expands
  default := (defaultOf_of_expands found expands).symm
  firstDefault := by
    rw [defaultOf_of_expands found expands, Expansion.defaultToken, ← ownDefault_of_expands expands,
      inherited_eq_findSome? expands, ownDefault]
  owners := by
    intro l member
    obtain ⟨⟨owner, path⟩, i, rule, written⟩ := l
    obtain rfl : path = [] := expands.in_state rfl _ member
    exact ⟨owner, rfl, by rwa [listAt?_state] at written⟩

/-- An expansion that a state is given after any questions that were answered is that of its entries as
they are written, and after any others, for whoever asks, the state is given the same. -/
theorem remembered_as_written {asks : List (Ask set)} {m : Marks set} {includer : Place}
    {name : String} {r : m.Reading} (asked : set.marksAfter {} asks = .ok m)
    (answered : (m.readState includer name).2 = .ok r) :
    ∃ rules, set.get? name = some rules ∧ set.AsWritten name rules r.expansion ∧
      ∀ others m' includer', set.marksAfter {} others = .ok m' →
        ∃ r', (m'.readState includer' name).2 = .ok r' ∧ r'.expansion = r.expansion := by
  have sound := Marks.sound_nothing set
  have at_ := (Marks.readState_expands (marksAfter_sound sound asked) answered).1
  obtain ⟨rules, found, expands⟩ := expandsAt_state.mp at_
  refine ⟨rules, found, asWritten_of_expands found expands, fun others m' includer' asked' => ?_⟩
  exact at_.answered (marksAfter_sound sound asked') includer'

def diamond : RuleSet :=
  RuleSet.empty
    |>.withState "start" [Rule.including "left", Rule.including "right"]
    |>.withState "left" [Rule.including "shared", Rule.single "l" "l"]
    |>.withState "right" [Rule.default "r", Rule.including "shared"]
    |>.withState "shared" [Rule.single "s" "s", Rule.default "d"]

theorem diamond_expands :
    (∃ e, diamond.ExpandsAt ⟨"right", []⟩ e) ∧
      ∃ e, diamond.ExpandsAt ⟨"start", []⟩ e ∧
        e.rules.map (fun l => (l.place.state, l.index)) = [("shared", 0), ("left", 1), ("shared", 0)] ∧
        e.defaultToken = some "d" := by
  have shared : diamond.Expands ⟨"shared", []⟩ 0 [Rule.single "s" "s", Rule.default "d"] _ :=
    .matching rfl rfl rfl (.default rfl rfl rfl (.nil _ _))
  have right : diamond.Expands ⟨"right", []⟩ 0 [Rule.default "r", Rule.including "shared"] _ :=
    .default rfl rfl rfl (.including rfl rfl rfl shared (.nil _ _))
  have left : diamond.Expands ⟨"left", []⟩ 0 [Rule.including "shared", Rule.single "l" "l"] _ :=
    .including rfl rfl rfl shared (.matching rfl rfl rfl (.nil _ _))
  have start : diamond.Expands ⟨"start", []⟩ 0 [Rule.including "left", Rule.including "right"] _ :=
    .including rfl rfl rfl left (.including rfl rfl rfl right (.nil _ _))
  exact ⟨⟨_, _, rfl, right⟩, _, ⟨_, rfl, start⟩, rfl, rfl⟩

/-- The right state is asked for first. It has the first default token that is written, but the left one
is included first. -/
theorem diamond_as_written :
    ∃ m, diamond.marksAfter {} [.state ⟨"right", []⟩ "right"] = .ok m ∧
      ∃ r, (m.readState ⟨"start", []⟩ "start").2 = .ok r ∧
        r.expansion.rules.map (fun l => (l.place.state, l.index)) =
          [("shared", 0), ("left", 1), ("shared", 0)] ∧
        r.expansion.defaultToken = some "d" ∧
        ∃ rules, diamond.get? "start" = some rules ∧ diamond.AsWritten "start" rules r.expansion ∧
          ∀ others m' includer', diamond.marksAfter {} others = .ok m' →
            ∃ r', (m'.readState includer' "start").2 = .ok r' ∧ r'.expansion = r.expansion := by
  obtain ⟨⟨_, right⟩, e, start, places, default⟩ := diamond_expands
  have sound := Marks.sound_nothing diamond
  obtain ⟨first, read, _⟩ := right.answered sound ⟨"right", []⟩
  have asked : diamond.marksAfter {} [.state ⟨"right", []⟩ "right"] = .ok first.marks := by
    simp only [marksAfter, ask, read]
    rfl
  obtain ⟨r, answered, rfl⟩ := start.answered (marksAfter_sound sound asked) ⟨"start", []⟩
  exact ⟨_, asked, r, answered, places, default, remembered_as_written asked answered⟩

end RuleSet

end StackLexer
