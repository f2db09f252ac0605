import StackLexer.Grammar.Loading
import StackLexer.Grammar.ToJson
import StackLexer.Proofs.Json.Reading

/-! Rule sets read back from JSON.
A draft without faults is decoded in the same way wherever it stands: as the rule of a state, or within
what another rule pushes. The members of a rule set its fields one by one, and a field that is absent
stays as it was, so the members written for a rule make up that rule. -/

namespace StackLexer

/-! ### Drafts of what was written -/

namespace Json

theorem asWrittenItems_eq_map (items : List Json) : asWrittenItems items = items.map asWritten := by
  induction items with
  | nil => rfl
  | cons item items ih => simp [asWrittenItems, ih]

theorem asWrittenMembers_eq_map (members : List (String × Json)) :
    asWrittenMembers members = members.map (fun m => (m.1, m.2.asWritten)) := by
  induction members with
  | nil => rfl
  | cons member members ih => simp [asWrittenMembers, ih]

mutual

theorem fault?_asWritten (json : Json) : json.asWritten.fault? = none := by
  match json with
  | null | bool _ | number _ | string _ => simp [asWritten, Draft.fault?]
  | array items => simp [asWritten, Draft.fault?, itemsFault?_asWritten items]
  | object members => simp [asWritten, Draft.fault?, membersFault?_asWritten members]

theorem itemsFault?_asWritten (items : List Json) :
    Draft.itemsFault? (asWrittenItems items) = none := by
  match items with
  | [] => rfl
  | item :: rest =>
    simp [asWrittenItems, Draft.itemsFault?, fault?_asWritten item, itemsFault?_asWritten rest]

theorem membersFault?_asWritten (members : List (String × Json)) :
    Draft.membersFault? (asWrittenMembers members) = none := by
  match members with
  | [] => rfl
  | (_, value) :: rest =>
    simp [asWrittenMembers, Draft.membersFault?, fault?_asWritten value,
      membersFault?_asWritten rest]

end

theorem wordyItems_iff {items : List Json} : WordyItems items ↔ ∀ item ∈ items, item.Wordy := by
  induction items with
  | nil => simp [WordyItems]
  | cons item items ih => simp [WordyItems, ih]

theorem wordyMembers_iff {members : List (String × Json)} :
    WordyMembers members ↔ ∀ m ∈ members, m.2.Wordy := by
  induction members with
  | nil => simp [WordyMembers]
  | cons member members ih => simp [WordyMembers, ih]

end Json

/-! ### Entries in order -/

namespace Entries

variable {α : Type} {name : String} {value : α} {entries : List (String × α)}

theorem insert_last (after : ∀ e ∈ entries, e.1 < name) :
    insert name value entries = entries ++ [(name, value)] := by
  induction entries with
  | nil => rfl
  | cons e entries ih =>
    obtain ⟨before, others⟩ := List.forall_mem_cons.mp after
    have notAfter : ¬ name < e.1 := fun lt => String.lt_irrefl _ (String.lt_trans before lt)
    have other : name ≠ e.1 := fun same => String.lt_irrefl _ (same ▸ before)
    simp [insert, notAfter, other, ih others]

theorem sort_of_sorted (sorted : Sorted entries) : sort entries = entries := by
  -- Each entry comes after all that have been put in, so that it goes to the end.
  have go : ∀ done : List (String × α), Sorted (done ++ entries) →
      entries.foldl (fun sorted e => insert e.1 e.2 sorted) done = done ++ entries := by
    induction entries with
    | nil => simp
    | cons e rest ih =>
      intro done inOrder
      have after : ∀ d ∈ done, d.1 < e.1 := fun d before =>
        (List.pairwise_append.mp inOrder).2.2 d before e List.mem_cons_self
      have others := ih (List.pairwise_cons.mp sorted).2 (done ++ [e]) (by simpa using inOrder)
      rw [List.foldl_cons, insert_last after, others]
      simp
  exact go [] sorted

end Entries

theorem Dictionary.ofEntries_entries {α : Type} (d : Dictionary α) : ofEntries d.entries = d := by
  cases d with
  | mk entries sorted => simp [ofEntries, Entries.sort_of_sorted sorted]

/-! ### Fields and members -/

namespace Decode

open Json (Draft)

theorem setField_congr {push push' : Draft → Except DecodeError Push} {d : Draft}
    (same : push d = push' d) (rule : Rule) (field : Field) :
    setField push rule field d = setField push' rule field d := by
  cases field with
  | push => cases d <;> simp [setField, optional, same]
  | _ => rfl

def within (pushed : Option Push) (_ : Draft) : Except DecodeError Push :=
  pushed.elim (.error .badPush) .ok

/-- A draft without faults pushes what it would push within another rule. -/
theorem push_of_clean {d : Draft} (clean : d.fault? = none) : push d = within (push? d) d := by
  rw [push, clean]
  cases push? d <;> rfl

theorem members_eq_ok_iff {ms : List (String × Draft)} (clean : Draft.membersFault? ms = none)
    {start rule : Rule} {seen : List Field} :
    members start seen ms = .ok rule ↔ members? start seen ms = some rule := by
  induction ms generalizing start seen with
  | nil => simp [members, members?]
  | cons m ms ih =>
    obtain ⟨name, d⟩ := m
    obtain ⟨here, others⟩ : d.fault? = none ∧ Draft.membersFault? ms = none := by
      simpa [Draft.membersFault?] using clean
    rw [members, members?]
    cases Field.ofName? name with
    | none => simp
    | some field =>
      simp only
      split
      · simp
      · have set : setField (fun _ => (push? d).elim (.error .badPush) .ok) start field d =
            setField push start field d := (setField_congr (push_of_clean here) start field).symm
        rw [set]
        cases setField push start field d with
        | error e => simp
        | ok next => exact ih others

end Decode

namespace Rule

theorem sizeOf_push {rule : Rule} {target : Push} (pushes : rule.push = some target) :
    sizeOf target < sizeOf rule := by
  cases rule
  obtain rfl := pushes
  simp only [mk.sizeOf_spec, Option.some.sizeOf_spec]
  omega

def jsonAt (rule : Rule) : Field → Option Json
  | .token => rule.token.map TokenSpec.toJson
  | .regex => rule.regex.map .string
  | .next => rule.next.map .string
  | .push => rule.push.map Push.toJson
  | .defaultToken => rule.defaultToken.map .string
  | .includes => rule.includes.map .string
  | .caseInsensitive => rule.caseInsensitive.map .bool
  | .comment => rule.comment.map .string

def membersOf (rule : Rule) (fields : List Field) : List (String × Json) :=
  fields.flatMap (fun field => field.member (rule.jsonAt field))

theorem toJson_eq (rule : Rule) : rule.toJson = .object (rule.membersOf Field.all) := by
  obtain ⟨token, regex, next, push, defaultToken, includes, caseInsensitive, comment⟩ := rule
  cases push <;> simp [toJson, membersOf, Field.all, jsonAt, Field.member]

def adopt (rule source : Rule) : Field → Rule
  | .token => { rule with token := source.token.or rule.token }
  | .regex => { rule with regex := source.regex.or rule.regex }
  | .next => { rule with next := source.next.or rule.next }
  | .push => { rule with push := source.push.or rule.push }
  | .defaultToken => { rule with defaultToken := source.defaultToken.or rule.defaultToken }
  | .includes => { rule with includes := source.includes.or rule.includes }
  | .caseInsensitive =>
    { rule with caseInsensitive := source.caseInsensitive.or rule.caseInsensitive }
  | .comment => { rule with comment := source.comment.or rule.comment }

theorem adopt_absent {rule source : Rule} {field : Field} (absent : source.jsonAt field = none) :
    rule.adopt source field = rule := by
  cases rule
  cases field <;> simp_all [jsonAt, adopt]

theorem adopt_all (rule : Rule) : Field.all.foldl (adopt · rule) {} = rule := by
  obtain ⟨token, regex, next, push, defaultToken, includes, caseInsensitive, comment⟩ := rule
  simp [Field.all, adopt]

end Rule

theorem RuleSet.toJson_eq (set : RuleSet) :
    set.toJson = .object (set.states.entries.map
      (fun state => (state.1, .array (Rule.listToJson state.2)))) := rfl

namespace Decode

open Json (Draft)

theorem strings?_map (kinds : List String) :
    strings? (kinds.map (fun kind => Draft.string kind)) = some kinds := by
  induction kinds with
  | nil => rfl
  | cons kind kinds ih => simp [strings?, ih]

theorem token_toJson (spec : TokenSpec) : token spec.toJson.asWritten = .ok spec := by
  cases spec with
  | single kind => rfl
  | groups kinds =>
    have clean := Json.fault?_asWritten (TokenSpec.groups kinds).toJson
    have items : Json.asWrittenItems (kinds.map .string) =
        kinds.map (fun kind => Draft.string kind) := by
      simp [Json.asWrittenItems_eq_map, Json.asWritten]
    simp only [TokenSpec.toJson, Json.asWritten, items] at clean ⊢
    simp [token, clean, strings?_map]

theorem setField_jsonAt {push : Draft → Except DecodeError Push} {start source : Rule} {field : Field}
    {json : Json}
    (pushed : ∀ target, source.push = some target → push target.toJson.asWritten = .ok target)
    (present : source.jsonAt field = some json) :
    setField push start field json.asWritten = .ok (start.adopt source field) := by
  cases field with
  | token =>
    obtain ⟨spec, found, rfl⟩ := Option.map_eq_some_iff.mp present
    have read := token_toJson spec
    cases spec <;>
      simp_all [setField, optional, TokenSpec.toJson, Json.asWritten, Rule.adopt, Except.map]
  | push =>
    obtain ⟨target, found, rfl⟩ := Option.map_eq_some_iff.mp present
    have read := pushed target found
    cases target <;>
      simp_all [setField, optional, Push.toJson, Json.asWritten, Rule.adopt, Except.map]
  | _ =>
    obtain ⟨value, found, rfl⟩ := Option.map_eq_some_iff.mp present
    simp [setField, optional, string, boolean, Json.asWritten, Rule.adopt, Except.map, found]

theorem members?_membersOf {source : Rule}
    (pushed : ∀ target, source.push = some target → push? target.toJson.asWritten = some target)
    {fields : List Field} (distinct : fields.Nodup) (start : Rule) {seen : List Field}
    (fresh : ∀ field ∈ fields, field ∉ seen) :
    members? start seen (Json.asWrittenMembers (source.membersOf fields)) =
      some (fields.foldl (Rule.adopt · source) start) := by
  induction fields generalizing start seen with
  | nil => rfl
  | cons field fields ih =>
    obtain ⟨new, distinct⟩ := List.nodup_cons.mp distinct
    obtain ⟨unseen, others⟩ := List.forall_mem_cons.mp fresh
    have later : ∀ f ∈ fields, f ∉ field :: seen := fun f inside => by
      simp only [List.mem_cons, not_or]
      exact ⟨fun same => new (same ▸ inside), others f inside⟩
    rw [Rule.membersOf, List.flatMap_cons, List.foldl_cons]
    cases present : source.jsonAt field with
    | none =>
      -- An absent field has no member, and adopting it changes nothing.
      rw [Field.member, List.nil_append, Rule.adopt_absent present]
      exact ih distinct start others
    | some json =>
      have each : ∀ target, source.push = some target →
          within (push? target.toJson.asWritten) target.toJson.asWritten = .ok target :=
        fun target found => by rw [pushed target found]; rfl
      have set : setField (fun _ => (push? json.asWritten).elim (.error .badPush) .ok) start field
          json.asWritten = .ok (start.adopt source field) :=
        calc setField (within (push? json.asWritten)) start field json.asWritten
            = setField (fun d => within (push? d) d) start field json.asWritten := by
              apply setField_congr
              rfl
          _ = .ok (start.adopt source field) := setField_jsonAt each present
      rw [Field.member, List.singleton_append, Json.asWrittenMembers, members?, Field.ofName?_name]
      simp only [unseen, if_false, set]
      exact ih distinct _ later

mutual

theorem rule?_toJson (rule : Rule) : rule? rule.toJson.asWritten = some rule := by
  have pushed : ∀ target, rule.push = some target → push? target.toJson.asWritten = some target := by
    intro target found
    have smaller := Rule.sizeOf_push found
    exact push?_toJson target
  rw [Rule.toJson_eq, Json.asWritten, rule?, members?_membersOf pushed (by decide) _ (by simp),
    Rule.adopt_all]
termination_by sizeOf rule
decreasing_by exact smaller

theorem push?_toJson (target : Push) : push? target.toJson.asWritten = some target := by
  match target with
  | .state name => rfl
  | .rules entries => simp [Push.toJson, Json.asWritten, push?, rules?_toJson entries]
termination_by sizeOf target

theorem rules?_toJson (entries : List Rule) :
    rules? (Json.asWrittenItems (Rule.listToJson entries)) = some entries := by
  cases entries with
  | nil => rfl
  | cons rule rest =>
    simp [Rule.listToJson, Json.asWrittenItems, rules?, rule?_toJson rule, rules?_toJson rest]
termination_by sizeOf entries

end

theorem rule_toJson (origin : Origin) (source : Rule) :
    rule origin source.toJson.asWritten = .ok source := by
  have clean := Json.membersFault?_asWritten (source.membersOf Field.all)
  have made := rule?_toJson source
  rw [Rule.toJson_eq, Json.asWritten] at made ⊢
  rw [rule?] at made
  rw [rule, (members_eq_ok_iff clean).mpr made]
  rfl

theorem listToJson_eq_map (entries : List Rule) : Rule.listToJson entries = entries.map Rule.toJson := by
  induction entries with
  | nil => rfl
  | cons rule rest ih => simp [Rule.listToJson, ih]

theorem mapM_map_ok {α β ε : Type} {write : α → β} {read : β → Except ε α} {items : List α}
    (back : ∀ item ∈ items, read (write item) = .ok item) :
    (items.map write).mapM read = .ok items := by
  induction items with
  | nil => rfl
  | cons item items ih =>
    obtain ⟨first, others⟩ := List.forall_mem_cons.mp back
    rw [List.map_cons, List.mapM_cons, first, ih others]
    rfl

theorem rules_toJson (origin : Origin) (entries : List Rule) :
    rules origin (Json.array (Rule.listToJson entries)).asWritten = .ok entries := by
  have each : ∀ entry ∈ entries, rule origin entry.toJson.asWritten = .ok entry :=
    fun entry _ => rule_toJson origin entry
  have items : Json.asWrittenItems (Rule.listToJson entries) =
      entries.map (fun entry => entry.toJson.asWritten) := by
    simp [Json.asWrittenItems_eq_map, listToJson_eq_map, Function.comp_def]
  rw [Json.asWritten, items, rules, mapM_map_ok each]
  rfl

theorem ruleSet_toJson (origin : Origin) (set : RuleSet) :
    ruleSet origin set.toJson.asWritten = .ok { states := set.states } := by
  have each : ∀ state ∈ set.states.entries, (do
      return (state.1, ← rules origin (Json.array (Rule.listToJson state.2)).asWritten) :
        Except DecodeError (String × List Rule)) = .ok state := fun state _ => by
    rw [rules_toJson]
    rfl
  have members : Json.asWrittenMembers (set.states.entries.map
      (fun state => (state.1, .array (Rule.listToJson state.2)))) =
      set.states.entries.map
        (fun state => (state.1, (Json.array (Rule.listToJson state.2)).asWritten)) := by
    simp [Json.asWrittenMembers_eq_map, Function.comp_def]
  rw [RuleSet.toJson_eq, Json.asWritten, members, ruleSet, mapM_map_ok each]
  exact congrArg (fun states => Except.ok (RuleSet.mk states [])) (Dictionary.ofEntries_entries set.states)

end Decode

/-! ### The text of a rule set -/

theorem TokenSpec.wordy_toJson (spec : TokenSpec) : spec.toJson.Wordy := by
  cases spec <;> simp [toJson, Json.Wordy, Json.wordyItems_iff]

theorem Rule.wordy_jsonAt {rule : Rule}
    (pushed : ∀ target, rule.push = some target → target.toJson.Wordy) {field : Field} {json : Json}
    (present : rule.jsonAt field = some json) : json.Wordy := by
  cases field with
  | token =>
    obtain ⟨spec, _, rfl⟩ := Option.map_eq_some_iff.mp present
    exact spec.wordy_toJson
  | push =>
    obtain ⟨target, found, rfl⟩ := Option.map_eq_some_iff.mp present
    exact pushed target found
  | _ =>
    obtain ⟨value, _, rfl⟩ := Option.map_eq_some_iff.mp present
    simp [Json.Wordy]

mutual

theorem Rule.wordy_toJson (rule : Rule) : rule.toJson.Wordy := by
  have pushed : ∀ target, rule.push = some target → target.toJson.Wordy := by
    intro target found
    have smaller := Rule.sizeOf_push found
    exact Push.wordy_toJson target
  rw [Rule.toJson_eq, Json.Wordy, Json.wordyMembers_iff]
  intro member written
  obtain ⟨field, _, here⟩ := List.mem_flatMap.mp written
  cases present : rule.jsonAt field with
  | none => simp [present, Field.member] at here
  | some json =>
    obtain rfl : member = (field.name, json) := by simpa [present, Field.member] using here
    exact Rule.wordy_jsonAt pushed present
termination_by sizeOf rule
decreasing_by exact smaller

theorem Push.wordy_toJson (target : Push) : target.toJson.Wordy := by
  match target with
  | .state name => simp [Push.toJson, Json.Wordy]
  | .rules entries =>
    simpa [Push.toJson, Json.Wordy] using Rule.wordy_listToJson entries
termination_by sizeOf target

theorem Rule.wordy_listToJson (entries : List Rule) : Json.WordyItems (Rule.listToJson entries) := by
  cases entries with
  | nil => simp [Rule.listToJson, Json.WordyItems]
  | cons rule rest =>
    simpa [Rule.listToJson, Json.WordyItems] using
      ⟨Rule.wordy_toJson rule, Rule.wordy_listToJson rest⟩
termination_by sizeOf entries

end

namespace RuleSet

theorem wordy_toJson (set : RuleSet) : set.toJson.Wordy := by
  rw [toJson_eq, Json.Wordy, Json.wordyMembers_iff]
  intro member written
  obtain ⟨state, _, rfl⟩ := List.mem_map.mp written
  simpa [Json.Wordy] using Rule.wordy_listToJson state.2

/-- A rule set is read back from its compact JSON text, provided that the text nests no deeper than
can be read. All that is lost is the room in empty lists. -/
theorem readJson_compact (set : RuleSet) (shallow : set.toJson.depth ≤ 127) :
    readJson set.toJson.compact = .ok { states := set.states } := by
  have reads : Json.Draft.read set.toJson.compact = (set.toJson.asWritten, none) :=
    Json.read_compact set.wordy_toJson shallow
  rw [readJson, ofJsonText, reads]
  simp only [Decode.ruleSet_toJson]
  rfl

def quaint : RuleSet :=
  RuleSet.empty.withState "\"\x01" [
    (Rule.groups [] "\\").withPush [{}, ({ comment := some "" } : Rule).withPush []],
    (Rule.single "é" "a").withPushState "\n"]

theorem readJson_compact_quaint :
    quaint.toJson.depth ≤ 127 ∧ readJson quaint.toJson.compact = .ok quaint := by
  have shallow : quaint.toJson.depth ≤ 127 := by decide
  exact ⟨shallow, readJson_compact quaint shallow⟩

end RuleSet

end StackLexer
