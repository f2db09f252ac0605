import StackLexer.Proofs.Grammar.Sources
import StackLexer.Proofs.Grammar.Splice
import StackLexer.Proofs.Lexing.Simulation

/-! Rule sets read as they are written.
The machine of a rule set has the places of lists for states. Whenever it comes to a list, it splices
the includes, compiles the regex of each entry and takes the entry's own word for where it leads.
Nothing is numbered, shared or remembered. A lexicon that is loaded does what this machine does. -/

namespace StackLexer

namespace Rule

def move (rule : Rule) (place : Place) (index : Nat) : Move Place :=
  match rule.next, rule.push with
  | some name, _ => if name = RuleSet.popName then .pop else .goto ⟨name, []⟩
  | none, some (.state name) => .push ⟨name, []⟩
  | none, some (.rules _) => .push (place.push index)
  | none, none => .stay

def arm? [RegexEngine] (rule : Rule) (place : Place) (index : Nat) : Option (Arm Place) := do
  let tokens ← rule.token
  let regex ← rule.regex
  let pattern ← (Pattern.compile regex (rule.caseInsensitive.getD false)).toOption
  some ⟨pattern, tokens, rule.move place index⟩

end Rule

namespace RuleSet

section

variable [RegexEngine]

def machine (set : RuleSet) : Machine Place where
  arms place := (set.splice [] place 0 (set.entriesAt place)).filterMap
    (fun (place, index, rule) => rule.arm? place index)
  defaultToken place :=
    (ownDefault (set.entriesAt place)).or (set.includedDefault [] (set.entriesAt place))

def StandsFor (set : RuleSet) (id : StateId) (place : Place) : Prop :=
  set.source id = some (set.keyAt place)

variable {set : RuleSet} {a : Assembly set}

theorem standsFor_iff (made : set.assembly = .ok a) {id : StateId} {place : Place} :
    set.StandsFor id place ↔ a.source id = some (set.keyAt place) := by
  rw [StandsFor, source_of_assembly made]

theorem move_of_leads (made : set.assembly = .ok a) {entry : Located set} {t : Transition}
    (leads : Loading.LeadsTo a.opened entry t) :
    Move.Related set.StandsFor t (entry.rule.move entry.place entry.index) := by
  have inv := assembly_invariant made
  unfold Rule.move
  cases leads with
  | stay next push =>
    rw [next, push]
    exact .stay
  | pop next push =>
    rw [next]
    exact .pop
  | goto next other push named =>
    rw [next]
    simp only [if_neg other]
    exact .goto ((standsFor_iff made).mpr (inv.source_named named))
  | push next push named =>
    rw [next, push]
    exact .push ((standsFor_iff made).mpr (inv.source_named named))
  | list next push number =>
    rw [next, push]
    refine .push ((standsFor_iff made).mpr ?_)
    exact inv.source_opened number

theorem arm_of_compiled (made : set.assembly = .ok a) {entry : Located set} {rule : Lexicon.Rule}
    (compiled : CompiledFrom a entry rule) :
    ∃ arm, entry.rule.arm? entry.place entry.index = some arm ∧
      Arm.Related set.StandsFor rule arm := by
  have move := move_of_leads made compiled.leads
  refine ⟨⟨rule.pattern, rule.tokens, entry.rule.move entry.place entry.index⟩, ?_, rfl, rfl, move⟩
  simp [Rule.arm?, compiled.token, compiled.regex, compiled.compiles, Except.toOption]

theorem arms_of_compiled (made : set.assembly = .ok a) {entries : List (Located set)}
    {rules : List Lexicon.Rule} (all : List.Forall₂ (CompiledFrom a) entries rules) :
    List.Forall₂ (Arm.Related set.StandsFor) rules
      ((entries.map (fun l => (l.place, l.index, l.rule))).filterMap
        (fun (place, index, rule) => rule.arm? place index)) := by
  induction all with
  | nil => exact .nil
  | cons compiled _ ih =>
    obtain ⟨arm, found, related⟩ := arm_of_compiled made compiled
    simp only [List.map_cons, List.filterMap_cons, found]
    exact .cons related ih

theorem machine_represented {x : Lexicon} (loaded : set.load.2 = .ok x) :
    set.machine.Represented x set.StandsFor := by
  refine ⟨fun id place stands => ?_, fun id place stands => ?_⟩
  · obtain ⟨a, e, _, expands, default, _⟩ := state_of_source loaded stands
    have own := ownDefault_of_expands (expands_keyAt expands)
    have included := includedDefault_of_expands (expands_keyAt expands) (away_nil set _)
    simp only [machine, own, included]
    exact default
  · obtain ⟨a, e, made, expands, _, compiled⟩ := state_of_source loaded stands
    have spliced := splice_of_expands (expands_keyAt expands) (away_nil set _)
    simp only [machine, spliced]
    exact arms_of_compiled made compiled

theorem source_of_related {frames : List StateId} {places : List Place}
    (related : List.Forall₂ set.StandsFor frames places) :
    frames.map set.source = places.map (fun place => some (set.keyAt place)) := by
  induction related with
  | nil => rfl
  | cons stands _ ih => rw [List.map_cons, List.map_cons, ih, stands]

/-- A lexicon that is loaded scans lines as the machine of its rule set reads them, from any named
state and under any settings: tokens and counts are the same, and the stacks hold the states of the
lists that are active in the machine. -/
theorem loaded_lines_as_written {x : Lexicon} (loaded : set.load.2 = .ok x) (settings : Settings)
    {name : String} {root : StateId} (named : x.stateId? name = some root) (texts : List String) :
    List.Forall₂
      (fun out reading => out.tokens = reading.tokens ∧ out.counts = reading.counts ∧
        out.stack.frames.map set.source =
          reading.frames.toList.map (fun place => some (set.keyAt place)))
      (Tokenizer.lines ⟨x, settings⟩ (.ofRoot root) texts)
      (set.machine.lines settings (.ofRoot ⟨name, []⟩) texts) := by
  have stands : set.StandsFor root ⟨name, []⟩ := source_of_stateId? loaded named
  have begins := Machine.Frames.related_ofRoot stands
  have alike := Machine.lines_related (t := ⟨x, settings⟩) (machine_represented loaded) begins texts
  refine alike.imp (fun out reading same => ?_)
  obtain ⟨tokens, counts, frames⟩ := same
  exact ⟨tokens, counts, source_of_related frames.toList⟩

end

theorem brackets_lines_as_written :
    ∃ x root, brackets.load.2 = .ok x ∧ x.stateId? "start" = some root ∧
      List.Forall₂
        (fun out reading => out.tokens = reading.tokens ∧ out.counts = reading.counts ∧
          out.stack.frames.map brackets.source =
            reading.frames.toList.map (fun place => some (brackets.keyAt place)))
        (Tokenizer.lines ⟨x, {}⟩ (.ofRoot root) ["((", "a)))("])
        (brackets.machine.lines {} (.ofRoot ⟨"start", []⟩) ["((", "a)))("]) := by
  obtain ⟨x, loaded, named⟩ := brackets_load
  exact ⟨x, ⟨0⟩, loaded, named, loaded_lines_as_written loaded {} named ["((", "a)))("]⟩

example :
    let reading := brackets.machine.line {} (.ofRoot ⟨"start", []⟩) "((a)))"
    reading.tokens.map Token.kind = ["open", "open", "text", "close", "close", "stray"] ∧
      reading.counts = ⟨1, 2, 2, 1, 0⟩ := by
  cbv

end RuleSet

end StackLexer
