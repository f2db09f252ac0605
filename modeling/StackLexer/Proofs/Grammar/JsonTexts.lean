import StackLexer.Proofs.Grammar.JsonRuleSets
import StackLexer.Proofs.Json.Remains

/-! Rule sets in JSON texts.
A text is read with the members of objects in the order in which they are written, and only as far as it
goes, whereas the members of a value come in the order of their keys and there are no faults in it. What
comes of the draft of a text holds neither numbers nor faults, so that it is the draft of the value that was
printed, and the order of members does not matter for what they make up. -/

namespace StackLexer

open Json (Draft)

namespace Decode

variable {d : Draft} {start rule : Rule} {field : Field} {seen fields : List Field} {items : List Draft}
  {ms : List (String × Draft)} {rest : Option Json.Fault} {origin : Origin} {set : RuleSet}
  {target : Push} {entries : List Rule}

/-! ### What is read is without numbers and faults -/

theorem wordy_strings? {kinds : List String} (read : strings? items = some kinds) :
    ∀ item ∈ items, item.Wordy := by
  induction items generalizing kinds with
  | nil => simp
  | cons item items ih =>
    cases item with
    | string s =>
      obtain ⟨others, read, _⟩ := Option.map_eq_some_iff.mp read
      exact List.forall_mem_cons.mpr ⟨.string s, ih read⟩
    | _ => simp [strings?] at read

theorem wordy_token {spec : TokenSpec} (read : token d = .ok spec) : d.Wordy := by
  cases d with
  | string s => exact .string s
  | array items rest =>
    unfold token at read
    dsimp only at read
    split at read
    · simp at read
    · rename_i clean
      split at read
      · rename_i kinds found
        have whole : rest = none := (Option.or_eq_none_iff.mp clean).2
        exact Draft.wordy_array.mpr ⟨wordy_strings? found, whole⟩
      · simp at read
  | fault f => simp [token, Draft.fault?] at read
  | object members rest =>
    unfold token at read
    dsimp only at read
    split at read <;> simp at read
  | _ => simp [token, Draft.fault?] at read

theorem wordy_string {s : String} (read : string d = .ok s) : d.Wordy := by
  cases d with
  | string s => exact .string s
  | _ => simp [string] at read

theorem wordy_boolean {b : Bool} (read : boolean d = .ok b) : d.Wordy := by
  cases d with
  | bool b => exact .bool b
  | _ => simp [boolean] at read

theorem wordy_optional {α : Type} {decode : Draft → Except DecodeError α} {value : Option α}
    (each : ∀ a, decode d = .ok a → d.Wordy) (read : optional decode d = .ok value) : d.Wordy := by
  unfold optional at read
  split at read
  · exact .null
  · obtain ⟨a, read, _⟩ := map_eq_ok_iff.mp read
    exact each a read

theorem wordy_setField {push : Draft → Except DecodeError Push}
    (pushed : ∀ target, push d = .ok target → d.Wordy) (read : setField push start field d = .ok rule) :
    d.Wordy := by
  cases field <;> obtain ⟨value, read, _⟩ := map_eq_ok_iff.mp read
  case token => exact wordy_optional (fun _ => wordy_token) read
  case push => exact wordy_optional pushed read
  case caseInsensitive => exact wordy_optional (fun _ => wordy_boolean) read
  all_goals exact wordy_optional (fun _ => wordy_string) read

theorem wordy_part (pushed : ∀ target, push? d = some target → d.Wordy)
    (read : part field d = .ok rule) : d.Wordy := by
  refine wordy_setField (fun target read => pushed target ?_) read
  cases found : push? d with
  | none => simp [within, found] at read
  | some other =>
    rw [within, found] at read
    exact congrArg some (Except.ok.inj read)

mutual

theorem wordy_push? (d : Draft) (clean : d.fault? = none) {target : Push} (read : push? d = some target) :
    d.Wordy := by
  match d with
  | .array items rest =>
    obtain ⟨inside, whole⟩ := Option.or_eq_none_iff.mp clean
    obtain ⟨entries, read, _⟩ := Option.map_eq_some_iff.mp read
    exact Draft.wordy_array.mpr ⟨wordy_rules? items inside read, whole⟩
  | .string s => exact .string s

theorem wordy_rules? (items : List Draft) (clean : Draft.itemsFault? items = none) {entries : List Rule}
    (read : rules? items = some entries) : ∀ d ∈ items, d.Wordy := by
  match items with
  | [] => simp
  | d :: rest =>
    obtain ⟨here, others⟩ := Option.or_eq_none_iff.mp clean
    cases rules?_eq_some_iff.mp read with
    | cons first more =>
      exact List.forall_mem_cons.mpr
        ⟨wordy_rule? d here first, wordy_rules? rest others (rules?_eq_some_iff.mpr more)⟩

theorem wordy_rule? (d : Draft) (clean : d.fault? = none) {rule : Rule} (read : rule? d = some rule) :
    d.Wordy := by
  match d with
  | .object ms rest =>
    obtain ⟨inside, whole⟩ := Option.or_eq_none_iff.mp clean
    exact Draft.wordy_object.mpr ⟨wordy_members? ms inside read, whole⟩
  | .array items rest =>
    obtain ⟨inside, whole⟩ := Option.or_eq_none_iff.mp clean
    exact Draft.wordy_array.mpr ⟨wordy_positions? items inside read, whole⟩

theorem wordy_members? (ms : List (String × Draft)) (clean : Draft.membersFault? ms = none)
    {start rule : Rule} {seen : List Field} (read : members? start seen ms = some rule) :
    ∀ m ∈ ms, m.2.Wordy := by
  match ms with
  | [] => simp
  | (name, d) :: rest =>
    obtain ⟨here, others⟩ := Option.or_eq_none_iff.mp clean
    obtain ⟨field, source, _, _, parted, more⟩ := members?_cons.mp read
    have first : d.Wordy := wordy_part (fun target read => wordy_push? d here read) parted
    exact List.forall_mem_cons.mpr ⟨first, wordy_members? rest others more⟩

theorem wordy_positions? (items : List Draft) (clean : Draft.itemsFault? items = none) {start rule : Rule}
    {fields : List Field} (read : positions? start fields items = some rule) : ∀ d ∈ items, d.Wordy := by
  match items, fields with
  | [], _ => simp
  | d :: rest, field :: fields =>
    obtain ⟨here, others⟩ := Option.or_eq_none_iff.mp clean
    simp only [positions?, setField_within] at read
    cases parted : part field d with
    | error e => simp [parted, Except.map] at read
    | ok source =>
      rw [parted] at read
      have first : d.Wordy := wordy_part (fun target read => wordy_push? d here read) parted
      exact List.forall_mem_cons.mpr ⟨first, wordy_positions? rest others read⟩

end

theorem wordy_push (read : push d = .ok target) : d.Wordy := by
  unfold push at read
  split at read
  · simp at read
  · rename_i clean
    split at read
    · rename_i found
      exact wordy_push? d clean found
    · simp at read

theorem wordy_members (read : members start seen ms = .ok rule) : ∀ m ∈ ms, m.2.Wordy := by
  induction ms generalizing start seen with
  | nil => simp
  | cons m ms ih =>
    obtain ⟨name, d⟩ := m
    simp only [members] at read
    split at read
    · simp at read
    · split at read
      · simp at read
      · split at read
        · rename_i next set
          exact List.forall_mem_cons.mpr ⟨wordy_setField (fun _ => wordy_push) set, ih read⟩
        · simp at read

theorem wordy_positions (read : positions start fields items = .ok (rule, 0)) : ∀ d ∈ items, d.Wordy := by
  induction items generalizing start fields with
  | nil => simp
  | cons d items ih =>
    cases fields with
    | nil => simp [positions] at read
    | cons field fields =>
      simp only [positions] at read
      split at read
      · rename_i next set
        exact List.forall_mem_cons.mpr ⟨wordy_setField (fun _ => wordy_push) set, ih read⟩
      · simp at read

theorem wordy_rule (read : Decode.rule origin d = .ok rule) : d.Wordy := by
  cases d with
  | object ms rest =>
    simp only [Decode.rule] at read
    cases made : members {} [] ms with
    | error e => simp [made, bind, Except.bind] at read
    | ok made' =>
      cases rest with
      | none => exact .object (wordy_members made)
      | some f => simp [made, bind, Except.bind] at read
  | array items rest =>
    simp only [Decode.rule] at read
    cases made : positions {} Field.all items with
    | error e => simp [made, bind, Except.bind] at read
    | ok made' =>
      obtain ⟨made', surplus⟩ := made'
      cases surplus with
      | zero =>
        cases rest with
        | none => exact .array (wordy_positions made)
        | some f => simp [made, bind, Except.bind] at read
      | succ n => cases origin <;> simp [made, bind, Except.bind] at read
  | _ => simp [Decode.rule] at read

theorem wordy_rules (read : rules origin d = .ok entries) : d.Wordy := by
  cases d with
  | array items rest =>
    obtain ⟨rfl, each⟩ := rules_eq_ok_iff.mp read
    refine .array (fun item inside => ?_)
    obtain ⟨entry, read⟩ := exists_forall₂_iff.mp ⟨entries, each⟩ item inside
    exact wordy_rule read
  | _ => simp [rules] at read

theorem wordy_ruleSet (read : ruleSet origin d = .ok set) : d.Wordy := by
  cases d with
  | object ms rest =>
    obtain ⟨rfl, states, _, each⟩ := ruleSet_eq_ok_iff.mp read
    refine .object (fun m inside => ?_)
    obtain ⟨state, entries, read, _⟩ := exists_forall₂_iff.mp ⟨states, each⟩ m inside
    exact wordy_rules read
  | _ => simp [ruleSet] at read

end Decode

/-! ### The order of members -/

namespace Json

mutual

def Distinct : Json → Prop
  | array items => DistinctItems items
  | object members => (members.map Prod.fst).Nodup ∧ DistinctMembers members
  | _ => True

def DistinctItems : List Json → Prop
  | [] => True
  | item :: rest => item.Distinct ∧ DistinctItems rest

def DistinctMembers : List (String × Json) → Prop
  | [] => True
  | (_, value) :: rest => value.Distinct ∧ DistinctMembers rest

end

theorem distinctItems_iff {items : List Json} : DistinctItems items ↔ ∀ item ∈ items, item.Distinct := by
  induction items with
  | nil => simp [DistinctItems]
  | cons item items ih => simp [DistinctItems, ih]

theorem distinctMembers_iff {members : List (String × Json)} :
    DistinctMembers members ↔ ∀ m ∈ members, m.2.Distinct := by
  induction members with
  | nil => simp [DistinctMembers]
  | cons member members ih => simp [DistinctMembers, ih]

variable {members : List (String × Json)} {name : String}

theorem lookup_asWritten (members : List (String × Json)) (name : String) :
    (asWrittenMembers members).lookup name = (members.lookup name).map asWritten := by
  rw [asWrittenMembers_eq_map]
  exact Entries.lookup_map Function.injective_id asWritten members name

theorem lookup_sort_ofMembers (distinct : (members.map Prod.fst).Nodup) (name : String) :
    (Entries.sort (Draft.ofMembers members)).lookup name = (members.lookup name).map Draft.ofJson := by
  have keys : (Draft.ofMembers members).map Prod.fst = members.map Prod.fst := by
    rw [Draft.ofMembers_eq_map, List.map_map]
    rfl
  rw [Entries.lookup_sort (keys ▸ distinct), Draft.ofMembers_eq_map]
  exact Entries.lookup_map Function.injective_id Draft.ofJson members name

theorem mem_sort_ofMembers (distinct : (members.map Prod.fst).Nodup) {d : Draft} :
    (name, d) ∈ Entries.sort (Draft.ofMembers members) ↔
      ∃ value, (name, value) ∈ members ∧ Draft.ofJson value = d := by
  rw [Entries.mem_iff_lookup (Entries.sorted_sort _), lookup_sort_ofMembers distinct, Option.map_eq_some_iff]
  simp only [Entries.mem_iff_lookup_of_nodup distinct]

end Json

namespace Decode

variable {json : Json} {ms ms' : List (String × Draft)} {rule : Rule} {origin : Origin}

def Alike (d d' : Draft) : Prop := ∀ field source, part field d = .ok source ↔ part field d' = .ok source

theorem Alike.symm {d d' : Draft} (alike : Alike d d') : Alike d' d :=
  fun field source => (alike field source).symm

/-- Members that differ in their names make up the same rule in any order. -/
theorem members?_alike (distinct : (ms.map Prod.fst).Nodup) (distinct' : (ms'.map Prod.fst).Nodup)
    (there : ∀ m ∈ ms, ∃ d', (m.1, d') ∈ ms' ∧ Alike m.2 d')
    (back : ∀ m ∈ ms', ∃ d, (m.1, d) ∈ ms ∧ Alike m.2 d)
    (made : members? {} [] ms = some rule) : members? {} [] ms' = some rule := by
  have parts := (members?_isSome_iff distinct (by simp)).mp ⟨rule, made⟩
  have parts' : ∀ m ∈ ms', ∃ field source, m.1 = field.name ∧ part field m.2 = .ok source := by
    intro m inside
    obtain ⟨d, inside, alike⟩ := back m inside
    obtain ⟨field, source, named, parted⟩ := parts _ inside
    exact ⟨field, source, named, (alike field source).mpr parted⟩
  obtain ⟨other, made'⟩ : ∃ other, members? {} [] ms' = some other :=
    (members?_isSome_iff distinct' (by simp)).mpr parts'
  -- Each field of either rule is told by the one member with its name, or absent in both.
  have same : other = rule := by
    apply Rule.ext_jsonAt
    intro field
    rcases members?_at made field with ⟨d, source, inside, parted, here⟩ | ⟨absent, here⟩
    · obtain ⟨d', inside', alike⟩ := there _ inside
      rcases members?_at made' field with ⟨e, source', insideE, parted', here'⟩ | ⟨absent', _⟩
      · obtain rfl : d' = e := by
          have found := (Entries.mem_iff_lookup_of_nodup distinct').mp inside'
          rw [(Entries.mem_iff_lookup_of_nodup distinct').mp insideE] at found
          exact (Option.some.inj found).symm
        obtain rfl := Except.ok.inj (((alike field source).mp parted).symm.trans parted')
        exact here'.trans here.symm
      · exact absurd inside' (absent' d')
    · rcases members?_at made' field with ⟨e, _, insideE, _, _⟩ | ⟨_, here'⟩
      · obtain ⟨d, inside, _⟩ := back _ insideE
        exact absurd inside (absent d)
      · exact here'.trans here.symm
  exact same ▸ made'

theorem positions?_alike {items items' : List Draft} (alike : List.Forall₂ Alike items items') (start : Rule)
    (fields : List Field) : positions? start fields items = positions? start fields items' := by
  induction alike generalizing start fields with
  | nil => rfl
  | @cons d d' items items' first _ ih =>
    cases fields with
    | nil => rfl
    | cons field fields =>
      simp only [positions?, setField_within]
      cases parted : part field d with
      | ok source =>
        rw [(first field source).mp parted]
        exact ih _ fields
      | error e =>
        cases parted' : part field d' with
        | ok source => simp [(first field source).mpr parted'] at parted
        | error e' => rfl

theorem strings?_asWritten (items : List Json) :
    strings? (Json.asWrittenItems items) = strings? (Draft.ofItems items) := by
  induction items with
  | nil => rfl
  | cons item items ih =>
    cases item with
    | string s => simp only [Json.asWrittenItems, Json.asWritten, Draft.ofItems, Draft.ofJson, strings?, ih]
    | _ => rfl

theorem token_asWritten (json : Json) : token json.asWritten = token (Draft.ofJson json) := by
  have clean := Json.fault?_asWritten json
  have clean' := Draft.fault?_ofJson json
  cases json with
  | array items =>
    rw [Json.asWritten] at clean ⊢
    rw [Draft.ofJson] at clean' ⊢
    simp only [token, clean, clean', strings?_asWritten]
  | object members =>
    rw [Json.asWritten] at clean ⊢
    rw [Draft.ofJson] at clean' ⊢
    simp only [token, clean, clean']
  | _ => rfl

theorem alike_asWritten (pushed : push? json.asWritten = push? (Draft.ofJson json)) :
    Alike json.asWritten (Draft.ofJson json) := by
  have tokens := token_asWritten json
  intro field source
  cases json with
  | array items =>
    rw [Json.asWritten, Draft.ofJson] at pushed tokens ⊢
    cases field <;> simp [part, setField, optional, within, string, boolean, Except.map, pushed, tokens]
  | object members =>
    rw [Json.asWritten, Draft.ofJson] at pushed tokens ⊢
    cases field <;> simp [part, setField, optional, within, string, boolean, Except.map, pushed, tokens]
  | _ => exact Iff.rfl

theorem rules?_congr {items items' : List Draft}
    (same : List.Forall₂ (fun d d' => rule? d = rule? d') items items') : rules? items = rules? items' := by
  induction same with
  | nil => rfl
  | cons first _ ih => rw [rules?, rules?, first, ih]

theorem rule?_asWritten_object {members : List (String × Json)} (distinct : (members.map Prod.fst).Nodup)
    (alike : ∀ m ∈ members, Alike m.2.asWritten (Draft.ofJson m.2)) :
    rule? (Json.object members).asWritten = rule? (Draft.ofJson (.object members)) := by
  have written : ((Json.asWrittenMembers members).map Prod.fst).Nodup := by
    rw [Json.asWrittenMembers_eq_map, List.map_map]
    exact distinct
  have sorted : ((Entries.sort (Draft.ofMembers members)).map Prod.fst).Nodup :=
    Entries.nodup_names (Entries.sorted_sort _)
  have there : ∀ m ∈ Json.asWrittenMembers members,
      ∃ d', (m.1, d') ∈ Entries.sort (Draft.ofMembers members) ∧ Alike m.2 d' := by
    rw [Json.asWrittenMembers_eq_map]
    intro m written
    obtain ⟨m, inside, rfl⟩ := List.mem_map.mp written
    exact ⟨Draft.ofJson m.2, (Json.mem_sort_ofMembers distinct).mpr ⟨m.2, inside, rfl⟩, alike m inside⟩
  have back : ∀ m ∈ Entries.sort (Draft.ofMembers members),
      ∃ d, (m.1, d) ∈ Json.asWrittenMembers members ∧ Alike m.2 d := by
    rw [Json.asWrittenMembers_eq_map]
    rintro ⟨name, d'⟩ sorted
    obtain ⟨value, inside, rfl⟩ := (Json.mem_sort_ofMembers distinct).mp sorted
    exact ⟨value.asWritten, List.mem_map.mpr ⟨(name, value), inside, rfl⟩, (alike _ inside).symm⟩
  apply Option.ext
  intro rule
  constructor
  · exact members?_alike written sorted there back
  · exact members?_alike sorted written back there

theorem asWritten_alike (json : Json) (distinct : json.Distinct) :
    rule? json.asWritten = rule? (Draft.ofJson json) ∧ push? json.asWritten = push? (Draft.ofJson json) := by
  induction json using Json.byParts with
  | array items ih =>
    have each : ∀ item ∈ items, item.Distinct := by
      simpa [Json.Distinct, Json.distinctItems_iff] using distinct
    rw [Json.asWritten, Draft.ofJson, Json.asWrittenItems_eq_map, Draft.ofItems_eq_map]
    constructor
    · refine positions?_alike ?_ {} Field.all
      rw [List.forall₂_map_left_iff, List.forall₂_map_right_iff, List.forall₂_same]
      exact fun item inside => alike_asWritten (ih item inside (each item inside)).2
    · refine congrArg (Option.map Push.rules) (rules?_congr ?_)
      rw [List.forall₂_map_left_iff, List.forall₂_map_right_iff, List.forall₂_same]
      exact fun item inside => (ih item inside (each item inside)).1
  | object members ih =>
    -- An object pushes nothing in either order.
    rw [Json.Distinct, Json.distinctMembers_iff] at distinct
    obtain ⟨keys, each⟩ := distinct
    refine ⟨rule?_asWritten_object keys (fun m inside => ?_), rfl⟩
    exact alike_asWritten (ih m inside (each m inside)).2
  | _ => exact ⟨rfl, rfl⟩

theorem rules_asWritten (distinct : json.Distinct) {entries : List Rule} :
    rules origin json.asWritten = .ok entries ↔ rules .value (Draft.ofJson json) = .ok entries := by
  have clean := Json.fault?_asWritten json
  have clean' := Draft.fault?_ofJson json
  have pushed := (asWritten_alike json distinct).2
  cases json with
  | array items =>
    rw [Json.asWritten] at clean pushed ⊢
    rw [Draft.ofJson] at clean' pushed ⊢
    rw [rules_iff_rules? clean, rules_iff_rules? clean']
    -- What is pushed is told apart by the rules that are listed.
    have same : rules? (Json.asWrittenItems items) = rules? (Draft.ofItems items) :=
      Option.map_injective (fun _ _ same => Push.rules.inj same) pushed
    rw [same]
  | _ => simp [Json.asWritten, Draft.ofJson, rules]

theorem ruleSet_iff_lookup (distinct : (ms.map Prod.fst).Nodup) {set : RuleSet} :
    ruleSet origin (.object ms none) = .ok set ↔ set.reserved = [] ∧ ∀ name,
      Option.Rel (fun d entries => rules origin d = .ok entries) (ms.lookup name) (set.get? name) := by
  refine ⟨fun read => ⟨ruleSet_reserved read, ruleSet_lookup distinct read⟩, fun ⟨plain, related⟩ => ?_⟩
  have each : ∀ m ∈ ms, ∃ state : String × List Rule,
      ∃ entries, rules origin m.2 = .ok entries ∧ state = (m.1, entries) := by
    intro m inside
    have here := related m.1
    rw [(Entries.mem_iff_lookup_of_nodup distinct).mp inside] at here
    generalize set.get? m.1 = found at here
    cases here with
    | @some _ entries read => exact ⟨(m.1, entries), entries, read, rfl⟩
  obtain ⟨states, each⟩ := exists_forall₂_iff.mpr each
  have read : ruleSet origin (.object ms none) = .ok { states := .ofEntries states } :=
    ruleSet_eq_ok_iff.mpr ⟨rfl, states, rfl, each⟩
  have same : set = { states := .ofEntries states } := by
    refine RuleSet.ext_get? plain (fun name => ?_)
    have here := related name
    have there := ruleSet_lookup distinct read name
    generalize set.get? name = found at here ⊢
    generalize RuleSet.get? _ name = found' at there ⊢
    cases member : ms.lookup name with
    | none =>
      rw [member] at here there
      cases here
      cases there
      rfl
    | some d =>
      rw [member] at here there
      cases here with
      | some first =>
        cases there with
        | some second => exact congrArg some (Except.ok.inj (first.symm.trans second))
  exact same ▸ read

theorem ruleSet_asWritten (distinct : json.Distinct) {set : RuleSet} :
    ruleSet origin json.asWritten = .ok set ↔ RuleSet.ofJson json = .ok set := by
  cases json with
  | object members =>
    rw [Json.Distinct, Json.distinctMembers_iff] at distinct
    obtain ⟨keys, each⟩ := distinct
    have written : ((Json.asWrittenMembers members).map Prod.fst).Nodup := by
      rw [Json.asWrittenMembers_eq_map, List.map_map]
      exact keys
    rw [RuleSet.ofJson, Json.asWritten, Draft.ofJson, ruleSet_iff_lookup written,
      ruleSet_iff_lookup (Entries.nodup_names (Entries.sorted_sort _))]
    refine and_congr_right (fun _ => forall_congr' (fun name => ?_))
    rw [Json.lookup_asWritten, Json.lookup_sort_ofMembers keys]
    have read : ∀ value, members.lookup name = some value → ∀ entries,
        rules origin value.asWritten = .ok entries ↔ rules .value (Draft.ofJson value) = .ok entries :=
      fun value found entries => rules_asWritten (each _ (mem_of_lookup found))
    cases found : members.lookup name <;> cases set.get? name
    case some.some value entries => simp only [Option.map_some, Option.rel_some_some, read value found]
    case none.none => exact ⟨fun _ => .none, fun _ => .none⟩
    all_goals constructor <;> rintro ⟨⟩
  | _ => simp [Json.asWritten, RuleSet.ofJson, Draft.ofJson, ruleSet]

end Decode

namespace RuleSet

/-- The rule set in the compact text of a value is that of the draft of the value. -/
theorem readJson_compact_iff {json : Json} (shallow : json.depth ≤ 127) {set : RuleSet} :
    readJson json.compact = .ok set ↔ Decode.ruleSet .text json.asWritten = .ok set := by
  have reads : readJson json.compact = .ok set ↔
      Decode.ruleSet .text (Draft.read json.compact).1 = .ok set ∧ (Draft.read json.compact).2 = none := by
    rw [readJson, ofJsonText]
    generalize Draft.read json.compact = read
    obtain ⟨draft, trailing⟩ := read
    cases made : Decode.ruleSet .text draft <;> cases trailing <;>
      simp [made, bind, Except.bind, Except.mapError]
  rw [reads]
  constructor
  · -- A draft that is a rule set has no number and no fault, so that it is the one of the printed value.
    rintro ⟨read, _⟩
    have same := Json.read_of_wordy shallow (Decode.wordy_ruleSet read)
    rwa [same] at read
  · intro read
    have wordy := (Json.wordy_asWritten json).mp (Decode.wordy_ruleSet read)
    rw [Json.read_compact wordy shallow]
    exact ⟨read, rfl⟩

/-- A value without repeated keys that nests no deeper than can be read is the same rule set, or none, whether
it is taken as it is or its compact text is read. -/
theorem readJson_eq_ok_iff_ofJson {json : Json} (distinct : json.Distinct) (shallow : json.depth ≤ 127)
    (set : RuleSet) : readJson json.compact = .ok set ↔ ofJson json = .ok set := by
  rw [readJson_compact_iff shallow]
  exact Decode.ruleSet_asWritten distinct

def shuffled : Json :=
  .object [
    ("start", .array [.object [("regex", .string "x"), ("token", .string "open"),
      ("push", .array [.array [.null, .null, .null, .null, .string "plain"]])]]),
    ("back", .array [])]

def shuffledRules : RuleSet :=
  (RuleSet.empty.withState "start" [(Rule.single "open" "x").withPush [Rule.default "plain"]]).withState
    "back" []

theorem readJson_eq_ok_iff_ofJson_shuffled :
    shuffled.Distinct ∧ shuffled.depth ≤ 127 ∧ ofJson shuffled = .ok shuffledRules ∧
      readJson shuffled.compact = .ok shuffledRules := by
  have distinct : shuffled.Distinct := by
    simp [shuffled, Json.Distinct, Json.DistinctItems, Json.DistinctMembers]
  have shallow : shuffled.depth ≤ 127 := by decide
  have taken : ofJson shuffled = .ok shuffledRules := by cbv
  have read := (readJson_eq_ok_iff_ofJson distinct shallow shuffledRules).mpr taken
  exact ⟨distinct, shallow, taken, read⟩

-- Of two members with one key a value keeps the later one, whereas a text has both.
example :
    let json := Json.object [("start", .array [.object [("next", .null), ("next", .null)]])]
    ofJson json = .ok (RuleSet.empty.withState "start" [{}]) ∧ ∀ set, readJson json.compact ≠ .ok set := by
  refine ⟨by cbv, fun set read => ?_⟩
  have made := congrArg Except.toOption ((readJson_compact_iff (by decide)).mp read)
  have failed : Except.toOption (Decode.ruleSet .text (Json.asWritten
      (.object [("start", .array [.object [("next", .null), ("next", .null)]])]))) = none := by cbv
  exact absurd (failed.symm.trans made) (Option.some_ne_none set).symm

end RuleSet

end StackLexer
