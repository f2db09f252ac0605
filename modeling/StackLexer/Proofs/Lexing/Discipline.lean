import StackLexer.Grammar.Bundled
import StackLexer.Proofs.Grammar.Memory
import StackLexer.Proofs.Grammar.PushPlaces
import StackLexer.Proofs.Lexing.Reference

/-! Rule sets that go back only from where they went in.
A rule set is balanced if no entry says which state follows, except that entries of pushed lists may go
back. Named states are spliced into pushed lists but pushed lists never into named states, so that the
state of a named list does not go back either. -/

namespace StackLexer.RuleSet

/-- Only entries of pushed lists name what follows, and all that they name is the way back. -/
def Balanced (set : RuleSet) : Prop :=
  ∀ place, ∀ rule ∈ set.entriesAt place,
    rule.next = none ∨ rule.next = some popName ∧ place.path ≠ []

def PushedAt (set : RuleSet) (place : Place) : Prop :=
  place ∈ set.pushPlaces ∨ ∃ name, place = ⟨name, []⟩ ∧
    ∃ writer, ∃ rule ∈ set.entriesAt writer, rule.push = some (.state name)

/-- Every list that is pushed has a default token, its own or that of a state it includes. -/
def Defaulted (set : RuleSet) : Prop :=
  ∀ place, set.PushedAt place →
    ((ownDefault (set.entriesAt place)).or (set.includedDefault [] (set.entriesAt place))).isSome

def places (set : RuleSet) : List Place := set.names.map (⟨·, []⟩) ++ set.pushPlaces

variable {set : RuleSet} {x : Lexicon} {a : Assembly set} {id : StateId}

theorem mem_places {place : Place} {rule : Rule} (inside : rule ∈ set.entriesAt place) :
    place ∈ set.places := by
  rw [entriesAt] at inside
  cases found : set.listAt? place with
  | none => simp [found] at inside
  | some rules =>
    obtain ⟨name, path⟩ := place
    cases path with
    | nil =>
      rw [listAt?_state] at found
      exact List.mem_append_left _ (List.mem_map_of_mem (mem_names found))
    | cons i path =>
      exact List.mem_append_right _ (mem_pushPlaces_iff.mpr ⟨by simp, rules, found⟩)

theorem forall_entries {holds : Place → Rule → Prop}
    (all : ∀ place ∈ set.places, ∀ rule ∈ set.entriesAt place, holds place rule) :
    ∀ place, ∀ rule ∈ set.entriesAt place, holds place rule :=
  fun place rule inside => all place (mem_places inside) rule inside

theorem mem_entriesAt (l : Located set) : l.rule ∈ set.entriesAt l.place := by
  obtain ⟨rules, found, at_⟩ := Option.bind_eq_some_iff.mp l.written
  rw [entriesAt, found]
  exact List.mem_of_getElem? at_

/-- The entries of a balanced rule set stay, push or go back, and only those of pushed lists go back. -/
theorem Balanced.move (balanced : set.Balanced) (l : Located set) :
    l.rule.move l.place l.index = .stay ∨
      (∃ place, l.rule.move l.place l.index = .push place ∧ set.PushedAt place) ∨
      l.rule.move l.place l.index = .pop ∧ l.place.path ≠ [] := by
  have inside := mem_entriesAt l
  unfold Rule.move
  rcases balanced l.place l.rule inside with next | ⟨next, pushed⟩
  · rw [next]
    cases push : l.rule.push with
    | none => exact .inl rfl
    | some target =>
      refine .inr (.inl ?_)
      cases target with
      | state name => exact ⟨_, rfl, .inr ⟨name, rfl, l.place, l.rule, inside, push⟩⟩
      | rules entries =>
        have written := Loading.listAt?_pushed l (Loading.pushed?_eq_some.mpr push)
        exact ⟨_, rfl, .inl (mem_pushPlaces written)⟩
  · rw [next]
    exact .inr (.inr ⟨if_pos rfl, pushed⟩)

def Inner [RegexEngine] (set : RuleSet) (id : StateId) : Prop :=
  ∃ place, set.StandsFor id place ∧ set.PushedAt place

theorem Balanced.transition [RegexEngine] (balanced : set.Balanced) (loaded : set.load.2 = .ok x) {place : Place}
    (stands : set.StandsFor id place) {rule : Lexicon.Rule} (member : rule ∈ (x.state id).rules) :
    rule.transition = .stay ∨ (∃ target, rule.transition = .push target ∧ set.Inner target) ∨
      rule.transition = .pop ∧ place.path ≠ [] := by
  obtain ⟨a, e, made, expands, _, compiled⟩ := state_of_source loaded stands
  obtain ⟨l, inside, fromEntry⟩ := exists_related compiled.flip (Array.mem_toList_iff.mpr member)
  have leads := move_of_leads made fromEntry.leads
  generalize rule.transition = transition at leads ⊢
  rcases balanced.move l with move | ⟨target, move, pushed⟩ | ⟨move, nested⟩
  · rw [move] at leads
    cases leads
    exact .inl rfl
  · rw [move] at leads
    cases leads with
    | push stands => exact .inr (.inl ⟨_, rfl, target, stands, pushed⟩)
  · rw [move] at leads
    cases leads
    refine .inr (.inr ⟨rfl, fun named => nested ?_⟩)
    exact (expands_keyAt expands).in_state named l inside

theorem Defaulted.state [RegexEngine] (defaulted : set.Defaulted) (loaded : set.load.2 = .ok x)
    (inner : set.Inner id) : (x.state id).defaultToken.isSome := by
  obtain ⟨place, stands, pushed⟩ := inner
  rw [(machine_represented loaded).defaultToken id place stands]
  exact defaulted place pushed

theorem defaulted_of_own
    (inPlace : ∀ place ∈ set.places, ∀ rule ∈ set.entriesAt place,
      rule.push.isSome → rule.pushed?.isSome)
    (own : ∀ place ∈ set.pushPlaces, (ownDefault (set.entriesAt place)).isSome) : set.Defaulted := by
  rintro place (pushed | ⟨name, rfl, writer, rule, inside, push⟩)
  · obtain ⟨kind, gives⟩ := Option.isSome_iff_exists.mp (own place pushed)
    simp only [gives, Option.some_or, Option.isSome_some]
  · have written := forall_entries inPlace writer rule inside
    simp [push, Rule.pushed?] at written

def ofRead (read : Json.Draft × Option Json.Fault) : Except LoadError RuleSet :=
  Except.mapError (fun e => .parse e.message) (do
    let set ← Decode.ruleSet .text read.1
    match read.2 with
    | some fault => .error (.badText fault)
    | none => .ok set)

theorem readJson_eq_ofRead (text : String) : readJson text = ofRead (Json.Draft.read text) := rfl

/-- A text that is spelled out is read from its characters on, which evaluation can follow. -/
theorem readJson_ofList (chars : List Char) :
    readJson (.ofList chars) = ofRead (Json.run .value [] chars) := by
  rw [readJson_eq_ofRead, Json.Draft.read, String.toList_ofList]

set_option maxRecDepth 40000 in
theorem stringTemplate_checked :
    (readJson StringTemplate.source).toOption.map (fun set =>
      decide ((∀ place ∈ set.places, ∀ rule ∈ set.entriesAt place,
          rule.next = none ∨ rule.next = some popName ∧ place.path ≠ []) ∧
        (∀ place ∈ set.places, ∀ rule ∈ set.entriesAt place,
          rule.push.isSome → rule.pushed?.isSome) ∧
        ∀ place ∈ set.pushPlaces, (ownDefault (set.entriesAt place)).isSome)) = some true := by
  unfold StringTemplate.source
  rw [readJson_ofList]
  decide +kernel

theorem stringTemplate_balanced :
    ∃ set, BundledGrammar.stringTemplate.ruleSet = .ok set ∧ set.Balanced ∧ set.Defaulted := by
  obtain ⟨set, found, checked⟩ := Option.map_eq_some_iff.mp stringTemplate_checked
  obtain ⟨next, inPlace, own⟩ := of_decide_eq_true checked
  refine ⟨set, ?_, forall_entries next, defaulted_of_own inPlace own⟩
  change readJson StringTemplate.source = .ok set
  generalize readJson StringTemplate.source = read at found
  cases read with
  | error fault => simp [Except.toOption] at found
  | ok other => simpa [Except.toOption] using found

end StackLexer.RuleSet
