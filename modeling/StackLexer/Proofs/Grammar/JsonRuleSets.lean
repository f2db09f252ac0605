import Mathlib
import StackLexer.Proofs.Grammar.JsonForms

/-! Rule sets from JSON values.
A value is read as a rule set just when it has the form of one. The rule set then holds what the value
gives, and the value leaves no choice of what that is. -/

namespace StackLexer

open Json (Draft)

namespace Decode

/-! ### Which values are rules -/

section

variable {json v : Json} {rule : Rule}

theorem part_push_isOk_iff (pushed : (∃ target, push? (Draft.ofJson v) = some target) ↔
      v ≠ .null ∧ Json.FieldForm .push v) :
    (∃ source, part .push (Draft.ofJson v) = .ok source) ↔ Json.FieldForm .push v := by
  by_cases null : v = .null
  · subst null
    exact ⟨fun _ => .null .push, fun _ => ⟨{}, part_push_null⟩⟩
  · constructor
    · rintro ⟨source, parted⟩
      obtain ⟨target, read, _⟩ := (part_push null).mp parted
      exact (pushed.mp ⟨target, read⟩).2
    · intro form
      obtain ⟨target, read⟩ := pushed.mpr ⟨null, form⟩
      exact ⟨_, (part_push null).mpr ⟨target, read, rfl⟩⟩

/-- A value is read as a rule if it has the form of one, provided that this is so of what it pushes. -/
theorem rule?_isSome_iff (pushed : ∀ value, json.under? .push = some value →
      ((∃ target, push? (Draft.ofJson value) = some target) ↔
        value ≠ .null ∧ Json.FieldForm .push value)) :
    (∃ rule, rule? (Draft.ofJson json) = some rule) ↔ json.RuleForm := by
  have fields : ∀ field value, json.under? field = some value →
      ((∃ source, part field (Draft.ofJson value) = .ok source) ↔ Json.FieldForm field value) := by
    intro field value found
    by_cases plain : field = .push
    · subst plain
      exact part_push_isOk_iff (pushed value found)
    · exact part_isOk_iff plain
  constructor
  · rintro ⟨rule, made⟩
    have shaped := shaped_of_rule? made
    rw [rule?_of_shaped shaped] at made
    have each := (members?_isSome_iff json.nodup_parts (by simp)).mp ⟨rule, made⟩
    refine .mk shaped (fun field value found => (fields field value found).mp ?_)
    obtain ⟨field', source, same, parted⟩ := each _ (Json.mem_parts.mpr ⟨value, found, rfl⟩)
    obtain rfl := Field.name_injective same
    exact ⟨source, parted⟩
  · rintro ⟨shaped, forms⟩
    rw [rule?_of_shaped shaped, members?_isSome_iff json.nodup_parts (by simp)]
    rintro ⟨name, d⟩ member
    obtain ⟨field, rfl⟩ := shaped.named member
    obtain ⟨value, found, rfl⟩ := Json.mem_parts.mp member
    obtain ⟨source, parted⟩ := (fields field value found).mpr (forms field value found)
    exact ⟨field, source, rfl, parted⟩

theorem push?_isSome_iff (each : ∀ items, v = .array items → ∀ item ∈ items,
      ((∃ rule, rule? (Draft.ofJson item) = some rule) ↔ item.RuleForm)) :
    (∃ target, push? (Draft.ofJson v) = some target) ↔ v ≠ .null ∧ Json.FieldForm .push v := by
  constructor
  · rintro ⟨target, read⟩
    rcases push?_ofJson.mp read with ⟨name, rfl, _⟩ | ⟨items, entries, rfl, _, read⟩
    · exact ⟨by simp, .state name⟩
    · refine ⟨by simp, .rules (fun item inside => (each items rfl item inside).mp ?_)⟩
      exact exists_forall₂_iff.mp ⟨entries, read⟩ item inside
  · rintro ⟨there, form⟩
    cases form with
    | null => exact absurd rfl there
    | rules inside =>
      obtain ⟨entries, read⟩ := exists_forall₂_iff.mpr
        (fun item member => (each _ rfl item member).mpr (inside item member))
      exact ⟨.rules entries, push?_ofJson.mpr (.inr ⟨_, entries, rfl, rfl, read⟩)⟩
    | state name => exact ⟨.state name, rfl⟩
    | text other => simp at other

theorem isSome_iff (json : Json) :
    ((∃ rule, rule? (Draft.ofJson json) = some rule) ↔ json.RuleForm) ∧
      ((∃ target, push? (Draft.ofJson json) = some target) ↔
        json ≠ .null ∧ Json.FieldForm .push json) := by
  induction json using Json.byPushes with
  | step json pushed listed =>
    refine ⟨rule?_isSome_iff (fun value found => (pushed value found).2), push?_isSome_iff ?_⟩
    exact fun items same item inside => (listed items same item inside).1

/-! ### What they hold -/

theorem given?_of_absent {field : Field} (absent : ∀ d, (field.name, d) ∉ json.parts) :
    json.given? field = none := by
  cases found : json.under? field with
  | none => rw [Json.given?, found, Option.bind_none]
  | some value => exact absurd (Json.mem_parts.mpr ⟨value, found, rfl⟩) (absent _)

theorem rule?_describes (pushed : ∀ value, json.under? .push = some value → ∀ target,
      push? (Draft.ofJson value) = some target → Json.DescribesPush (some value) (some target))
    (made : rule? (Draft.ofJson json) = some rule) : json.Describes rule := by
  rw [rule?_of_shaped (shaped_of_rule? made)] at made
  refine .mk (fun field plain => ?_) ?_
  · rcases members?_at made field with ⟨d, source, inside, parted, same⟩ | ⟨absent, same⟩
    · obtain ⟨value, found, rfl⟩ := Json.mem_parts.mp inside
      rw [same, ((part_ofJson plain).mp parted).2, Json.given?, found, Option.bind_some]
    · rw [same, given?_of_absent absent]
      cases field <;> rfl
  · rcases members?_at made .push with ⟨d, source, inside, parted, same⟩ | ⟨absent, same⟩
    · obtain ⟨value, found, rfl⟩ := Json.mem_parts.mp inside
      rw [Rule.push_of_jsonAt same, Json.given?, found, Option.bind_some]
      by_cases null : value = .null
      · subst null
        obtain rfl := Except.ok.inj (part_push_null.symm.trans parted)
        exact .absent
      · obtain ⟨target, read, rfl⟩ := (part_push null).mp parted
        rw [Json.present_eq_some.mpr ⟨rfl, null⟩]
        exact pushed value found target read
    · rw [Rule.push_of_jsonAt same, given?_of_absent absent]
      exact .absent

theorem push?_describes (each : ∀ items, v = .array items → ∀ item ∈ items, ∀ rule,
      rule? (Draft.ofJson item) = some rule → item.Describes rule) {target : Push}
    (read : push? (Draft.ofJson v) = some target) : Json.DescribesPush (some v) (some target) := by
  rcases push?_ofJson.mp read with ⟨name, rfl, rfl⟩ | ⟨items, entries, rfl, rfl, made⟩
  · exact .state name
  · have both := (List.forall₂_and_left _ _).mpr ⟨each items rfl, made⟩
    exact .rules (both.imp (fun item entry read => read.1 entry read.2))

theorem describes (json : Json) :
    (∀ rule, rule? (Draft.ofJson json) = some rule → json.Describes rule) ∧
      ∀ target, push? (Draft.ofJson json) = some target → Json.DescribesPush (some json) (some target) := by
  induction json using Json.byPushes with
  | step json pushed listed =>
    refine ⟨fun rule => rule?_describes (fun value found => (pushed value found).2), fun target => ?_⟩
    exact push?_describes (fun items same item inside => (listed items same item inside).1)

end

end Decode

/-! ### What they hold is determined -/

namespace Rule

theorem ext_jsonAt {rule other : Rule} (same : ∀ field, rule.jsonAt field = other.jsonAt field) :
    rule = other := by
  have written : rule.toJson = other.toJson := by
    simp only [toJson_eq, membersOf, same]
  have back := Decode.rule?_toJson rule
  rw [written, Decode.rule?_toJson other] at back
  exact (Option.some.inj back).symm

end Rule

namespace Json

theorem Describes.unique {json : Json} {rule other : Rule} (first : json.Describes rule)
    (second : json.Describes other) (push : ∀ value, json.under? .push = some value →
      ∀ target target', DescribesPush value.present target → DescribesPush value.present target' →
        target = target') : rule = other := by
  obtain ⟨plain, pushed⟩ := first
  obtain ⟨plain', pushed'⟩ := second
  have same : rule.push = other.push := by
    rw [given?] at pushed pushed'
    cases found : json.under? .push with
    | none =>
      rw [found, Option.bind_none] at pushed pushed'
      generalize rule.push = target at pushed ⊢
      generalize other.push = target' at pushed' ⊢
      cases pushed
      cases pushed'
      rfl
    | some value =>
      rw [found, Option.bind_some] at pushed pushed'
      exact push value found _ _ pushed pushed'
  apply Rule.ext_jsonAt
  intro field
  by_cases here : field = .push
  · subst here
    exact congrArg (Option.map Push.toJson) same
  · exact (plain field here).trans (plain' field here).symm

theorem DescribesPush.unique {json : Json} {target target' : Option Push}
    (first : DescribesPush json.present target) (second : DescribesPush json.present target')
    (each : ∀ items, json = array items → ∀ item ∈ items, ∀ rule other,
      item.Describes rule → item.Describes other → rule = other) : target = target' := by
  generalize given : json.present = value at first second
  cases first with
  | absent =>
    cases second
    rfl
  | state name =>
    cases second
    rfl
  | rules here =>
    cases second with
    | rules there =>
      have determined := each _ (present_eq_some.mp given).1
      have here := (List.forall₂_and_left _ _).mpr ⟨determined, here⟩
      have there := (List.forall₂_and_left _ _).mpr ⟨determined, there⟩
      rw [Relator.RightUnique.forall₂ (fun item rule other first second =>
        first.1 rule other first.2 second.2) here there]

theorem describes_unique (json : Json) :
    (∀ rule other, json.Describes rule → json.Describes other → rule = other) ∧
      ∀ target target', DescribesPush json.present target → DescribesPush json.present target' →
        target = target' := by
  induction json using byPushes with
  | step json pushed listed =>
    constructor
    · exact fun rule other first second =>
        first.unique second (fun value found => (pushed value found).2)
    · exact fun target target' first second =>
        first.unique second (fun items same item inside => (listed items same item inside).1)

end Json

/-! ### Rule sets -/

namespace Decode

variable {json v : Json} {set : RuleSet} {entries : List Rule} {origin : Origin} {items : List Draft}
  {ms : List (String × Draft)} {rest : Option Json.Fault}

theorem rules_eq_ok_iff : rules origin (.array items rest) = .ok entries ↔
    rest = none ∧ List.Forall₂ (fun d entry => rule origin d = .ok entry) items entries := by
  rw [rules, ← mapM_eq_ok_iff]
  cases items.mapM (rule origin) <;> cases rest <;> simp [bind, Except.bind]

theorem rules_iff_rules? (clean : (Draft.array items rest).fault? = none) :
    rules origin (.array items rest) = .ok entries ↔ rules? items = some entries := by
  obtain ⟨inside, rfl⟩ := Option.or_eq_none_iff.mp clean
  have each : ∀ d ∈ items, ∀ entry, Decode.rule origin d = .ok entry ↔ rule? d = some entry :=
    fun d member entry => rule_eq_ok_iff (Draft.itemsFault?_eq_none_iff.mp inside d member)
  rw [rules_eq_ok_iff, rules?_eq_some_iff]
  constructor
  · rintro ⟨_, read⟩
    have both := (List.forall₂_and_left _ _).mpr ⟨each, read⟩
    exact both.imp (fun d entry both => (both.1 entry).mp both.2)
  · intro read
    have both := (List.forall₂_and_left _ _).mpr ⟨each, read⟩
    exact ⟨rfl, both.imp (fun d entry both => (both.1 entry).mpr both.2)⟩

theorem rules_ofJson : rules .value (Draft.ofJson v) = .ok entries ↔ ∃ items, v = .array items ∧
    List.Forall₂ (fun item entry => rule? (Draft.ofJson item) = some entry) items entries := by
  have clean := Draft.fault?_ofJson v
  cases v with
  | array items =>
    rw [Draft.ofJson] at clean ⊢
    rw [rules_iff_rules? clean, rules?_eq_some_iff, Draft.ofItems_eq_map, List.forall₂_map_left_iff]
    simp
  | _ => simp [Draft.ofJson, rules]

theorem rules_isOk_iff : (∃ entries, rules .value (Draft.ofJson v) = .ok entries) ↔
    ∃ items, v = .array items ∧ ∀ item ∈ items, item.RuleForm := by
  simp only [rules_ofJson]
  constructor
  · rintro ⟨entries, items, same, each⟩
    refine ⟨items, same, fun item inside => (isSome_iff item).1.mp ?_⟩
    exact exists_forall₂_iff.mp ⟨entries, each⟩ item inside
  · rintro ⟨items, same, forms⟩
    obtain ⟨entries, each⟩ := exists_forall₂_iff.mpr
      (fun item inside => (isSome_iff item).1.mpr (forms item inside))
    exact ⟨entries, items, same, each⟩

theorem map_eq_ok_iff {α β ε : Type} {made : Except ε α} {f : α → β} {b : β} :
    made.map f = .ok b ↔ ∃ a, made = .ok a ∧ b = f a := by
  cases made <;> simp [Except.map, eq_comm]

theorem ruleSet_eq_ok_iff : ruleSet origin (.object ms rest) = .ok set ↔
    rest = none ∧ ∃ states, set = { states := .ofEntries states } ∧
      List.Forall₂ (fun m state => ∃ entries, rules origin m.2 = .ok entries ∧ state = (m.1, entries))
        ms states := by
  have each (m : String × Draft) (state : String × List Rule) :
      (do return (m.1, ← rules origin m.2) : Except DecodeError (String × List Rule)) = .ok state ↔
        ∃ entries, rules origin m.2 = .ok entries ∧ state = (m.1, entries) := by
    cases rules origin m.2 <;> simp [bind, Except.bind, pure, Except.pure, eq_comm]
  simp only [← each, ← mapM_eq_ok_iff]
  rw [ruleSet]
  generalize ms.mapM (m := Except DecodeError) _ = made
  cases made <;> cases rest <;> simp [bind, Except.bind, eq_comm]

theorem ofJson_eq_ok_iff : RuleSet.ofJson json = .ok set ↔ ∃ members states, json = .object members ∧
    set = { states := .ofEntries states } ∧ List.Forall₂ (fun (m : String × Draft) state =>
      ∃ entries, rules .value m.2 = .ok entries ∧ state = (m.1, entries))
      (Entries.sort (Draft.ofMembers members)) states := by
  cases json with
  | object members => simp [RuleSet.ofJson, Draft.ofJson, ruleSet_eq_ok_iff]
  | _ => simp [RuleSet.ofJson, Draft.ofJson, ruleSet]

theorem mem_sorted {members : List (String × Json)} {name : String} {d : Draft} :
    (name, d) ∈ Entries.sort (Draft.ofMembers members) ↔
      ∃ value, (Json.object members).member? name = some value ∧ Draft.ofJson value = d := by
  rw [Entries.mem_iff_lookup (Entries.sorted_sort _), Json.lookup_ofMembers]
  exact Option.map_eq_some_iff

theorem ofJson_isOk_iff : (∃ set, RuleSet.ofJson json = .ok set) ↔ json.RuleSetForm := by
  simp only [ofJson_eq_ok_iff]
  constructor
  · rintro ⟨set, members, states, rfl, _, each⟩
    refine ⟨members, rfl, fun name value found => rules_isOk_iff.mp ?_⟩
    obtain ⟨state, entries, read, _⟩ :=
      exists_forall₂_iff.mp ⟨states, each⟩ _ (mem_sorted.mpr ⟨value, found, rfl⟩)
    exact ⟨entries, read⟩
  · rintro ⟨members, rfl, forms⟩
    obtain ⟨states, each⟩ := exists_forall₂_iff.mpr (fun (m : String × Draft) inside => by
      obtain ⟨value, found, same⟩ := mem_sorted.mp inside
      obtain ⟨entries, read⟩ := rules_isOk_iff.mpr (forms _ value found)
      exact (⟨(m.1, entries), entries, same ▸ read, rfl⟩ : ∃ state : String × List Rule,
        ∃ entries, rules .value m.2 = .ok entries ∧ state = (m.1, entries)))
    exact ⟨_, members, states, rfl, rfl, each⟩

theorem lookup_forall₂ {α β : Type} {R : α → β → Prop} {ms : List (String × α)}
    {states : List (String × β)} (each : List.Forall₂ (fun m state => ∃ b, R m.2 b ∧ state = (m.1, b)) ms states)
    (name : String) : Option.Rel R (ms.lookup name) (states.lookup name) := by
  induction each with
  | nil => exact .none
  | cons first _ ih =>
    obtain ⟨b, related, rfl⟩ := first
    rw [Entries.lookup_cons, Entries.lookup_cons]
    split
    · exact .some related
    · exact ih

theorem map_fst_forall₂ {α β : Type} {R : α → β → Prop} {ms : List (String × α)}
    {states : List (String × β)} (each : List.Forall₂ (fun m state => ∃ b, R m.2 b ∧ state = (m.1, b)) ms states) :
    states.map Prod.fst = ms.map Prod.fst := by
  induction each with
  | nil => rfl
  | cons first _ ih =>
    obtain ⟨b, _, rfl⟩ := first
    rw [List.map_cons, List.map_cons, ih]

theorem ruleSet_lookup (distinct : (ms.map Prod.fst).Nodup) (read : ruleSet origin (.object ms rest) = .ok set)
    (name : String) :
    Option.Rel (fun d entries => rules origin d = .ok entries) (ms.lookup name) (set.get? name) := by
  obtain ⟨_, states, rfl, each⟩ := ruleSet_eq_ok_iff.mp read
  have names := map_fst_forall₂ (R := fun d entries => rules origin d = .ok entries) each
  have distinct' : (states.map Prod.fst).Nodup := names ▸ distinct
  have related := lookup_forall₂ (R := fun d entries => rules origin d = .ok entries) each name
  rwa [← Entries.lookup_sort distinct'] at related

theorem ruleSet_reserved (read : ruleSet origin (.object ms rest) = .ok set) : set.reserved = [] := by
  obtain ⟨_, states, rfl, _⟩ := ruleSet_eq_ok_iff.mp read
  rfl

theorem ofJson_describes (read : RuleSet.ofJson json = .ok set) : json.DescribesSet set := by
  obtain ⟨members, _, rfl, _, _⟩ := ofJson_eq_ok_iff.mp read
  rw [RuleSet.ofJson, Draft.ofJson] at read
  refine ⟨ruleSet_reserved read, fun name => ?_⟩
  have related := ruleSet_lookup (Entries.nodup_names (Entries.sorted_sort _)) read name
  rw [Json.lookup_ofMembers] at related
  generalize set.get? name = rules? at related ⊢
  cases member : (Json.object members).member? name with
  | none =>
    rw [member] at related
    cases related
    exact .none
  | some value =>
    rw [member] at related
    cases related with
    | some read =>
      obtain ⟨items, rfl, each⟩ := rules_ofJson.mp read
      exact .some ⟨items, rfl, each.imp (fun item entry made => (describes item).1 entry made)⟩

end Decode

namespace RuleSet

theorem ext_get? {set other : RuleSet} (room : set.reserved = other.reserved)
    (same : ∀ name, set.get? name = other.get? name) : set = other := by
  obtain ⟨⟨entries, sorted⟩, reserved⟩ := set
  obtain ⟨⟨entries', sorted'⟩, reserved'⟩ := other
  obtain rfl : reserved = reserved' := room
  have perm : entries.Perm entries' := by
    refine (List.perm_ext_iff_of_nodup (.of_map _ (Entries.nodup_names sorted))
      (.of_map _ (Entries.nodup_names sorted'))).mpr (fun e => ?_)
    rw [Entries.mem_iff_lookup sorted, Entries.mem_iff_lookup sorted']
    exact Eq.congr_left (same e.1)
  -- There are no two entries each of which comes before the other.
  obtain rfl := perm.eq_of_pairwise (fun a b _ _ before after =>
    absurd (String.lt_trans before after) (String.lt_irrefl _)) sorted sorted'
  rfl

theorem describesSet_unique {json : Json} {set other : RuleSet} (first : json.DescribesSet set)
    (second : json.DescribesSet other) : set = other := by
  refine ext_get? (first.1.trans second.1.symm) (fun name => ?_)
  have here := first.2 name
  have there := second.2 name
  generalize set.get? name = rules at here ⊢
  generalize other.get? name = rules' at there ⊢
  cases member : json.member? name with
  | none =>
    rw [member] at here there
    cases here
    cases there
    rfl
  | some value =>
    rw [member] at here there
    cases here with
    | some described =>
      cases there with
      | some described' =>
        obtain ⟨items, rfl, each⟩ := described
        obtain ⟨items', same, each'⟩ := described'
        obtain rfl := Json.array.inj same
        have unique : Relator.RightUnique Json.Describes :=
          fun item rule other => (Json.describes_unique item).1 rule other
        rw [unique.forall₂ each each']

/-- A value is read as a rule set just when it is an object of lists of rules. What is read holds what is
given, and no other rule set does. -/
theorem ofJson_accepts (json : Json) :
    ((∃ set, ofJson json = .ok set) ↔ json.RuleSetForm) ∧
      ∀ set, ofJson json = .ok set → json.DescribesSet set ∧ ∀ other, json.DescribesSet other → other = set :=
  ⟨Decode.ofJson_isOk_iff, fun _ read => ⟨Decode.ofJson_describes read,
    fun _ described => describesSet_unique described (Decode.ofJson_describes read)⟩⟩

def terse : Json :=
  .object [("start", .array [.array [.string "open", .string "x", .null,
    .array [.object [("include", .string "start"), ("token", .null)]]]])]

def terseRules : RuleSet :=
  RuleSet.empty.withState "start" [(Rule.single "open" "x").withPush [Rule.including "start"]]

theorem ofJson_accepts_terse :
    ofJson terse = .ok terseRules ∧ terse.RuleSetForm ∧ terse.DescribesSet terseRules := by
  have read : ofJson terse = .ok terseRules := by cbv
  exact ⟨read, (ofJson_accepts terse).1.mp ⟨terseRules, read⟩, ((ofJson_accepts terse).2 _ read).1⟩

end RuleSet

end StackLexer
