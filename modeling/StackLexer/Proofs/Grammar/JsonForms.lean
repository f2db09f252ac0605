import Mathlib
import StackLexer.Proofs.Grammar.FieldParts
import StackLexer.Proofs.Grammar.PushPlaces

/-! The JSON values that are rule sets.
A rule is an object of fields or a list of their values in order, at every depth. Whether a value is one is
said here by its form alone, and what the rule holds by what the value gives for each field, where null is
as good as nothing. -/

namespace StackLexer

open Json (Draft)

/-! ### Forms -/

namespace Json

def present : Json → Option Json
  | null => none
  | json => some json

def under? (json : Json) (field : Field) : Option Json :=
  match json with
  | array items => items[Field.all.idxOf field]?
  | _ => json.member? field.name

def given? (json : Json) (field : Field) : Option Json := (json.under? field).bind present

def Shaped : Json → Prop
  | object members => ∀ m ∈ members, ∃ field : Field, m.1 = field.name
  | array items => items.length ≤ Field.all.length
  | _ => False

mutual

inductive RuleForm : Json → Prop
  | mk {json : Json} (shaped : json.Shaped)
      (fields : ∀ field value, json.under? field = some value → FieldForm field value) : RuleForm json

inductive FieldForm : Field → Json → Prop
  | null (field : Field) : FieldForm field null
  | kind (name : String) : FieldForm .token (string name)
  | kinds (names : List String) : FieldForm .token (array (names.map string))
  | rules {items : List Json} (each : ∀ item ∈ items, RuleForm item) : FieldForm .push (array items)
  | state (name : String) : FieldForm .push (string name)
  | flag (value : Bool) : FieldForm .caseInsensitive (bool value)
  | text {field : Field} (other : field ∉ [.token, .push, .caseInsensitive]) (value : String) :
      FieldForm field (string value)

end

def RuleSetForm (json : Json) : Prop :=
  ∃ members, json = object members ∧ ∀ name value, json.member? name = some value →
    ∃ items, value = array items ∧ ∀ item ∈ items, RuleForm item

mutual

/-- A rule holds what a value gives for its fields and nothing else. -/
inductive Describes : Json → Rule → Prop
  | mk {json : Json} {rule : Rule}
      (plain : ∀ field, field ≠ .push → rule.jsonAt field = json.given? field)
      (push : DescribesPush (json.given? .push) rule.push) : Describes json rule

inductive DescribesPush : Option Json → Option Push → Prop
  | absent : DescribesPush none none
  | rules {items : List Json} {entries : List Rule} (each : List.Forall₂ Describes items entries) :
      DescribesPush (some (array items)) (some (.rules entries))
  | state (name : String) : DescribesPush (some (string name)) (some (.state name))

end

/-- A rule set has the states that are keys, with the rules that are listed under them. An empty list has
no room. -/
def DescribesSet (json : Json) (set : RuleSet) : Prop :=
  set.reserved = [] ∧
  ∀ name, Option.Rel (fun value rules => ∃ items, value = array items ∧ List.Forall₂ Describes items rules)
    (json.member? name) (set.get? name)

end Json

/-! ### Drafts of values -/

namespace Entries

variable {α : Type} {entries : List (String × α)} {name : String} {value : α}

theorem mem_of_mem_sort {e : String × α} (member : e ∈ sort entries) : e ∈ entries := by
  have go : ∀ sorted : List (String × α),
      e ∈ entries.foldl (fun sorted e => insert e.1 e.2 sorted) sorted → e ∈ sorted ∨ e ∈ entries := by
    clear member
    induction entries with
    | nil => exact fun sorted member => .inl member
    | cons head rest ih =>
      intro sorted member
      rcases ih _ member with inserted | later
      · rcases mem_insert inserted with rfl | before
        · exact .inr List.mem_cons_self
        · exact .inl before
      · exact .inr (List.mem_cons_of_mem _ later)
  exact (go [] member).resolve_left List.not_mem_nil

theorem lookup_sort_reverse (entries : List (String × α)) (name : String) :
    (sort entries).lookup name = entries.reverse.lookup name := by
  -- The last entry is put in last and hides those before it.
  rw [sort, ← List.foldr_reverse]
  generalize entries.reverse = latest
  induction latest with
  | nil => rfl
  | cons e earlier ih => rw [List.foldr_cons, lookup_insert, lookup_cons, ih]

theorem nodup_names (sorted : Sorted entries) : (entries.map Prod.fst).Nodup :=
  List.pairwise_map.mpr (sorted.imp String.ne_of_lt)

theorem mem_iff_lookup_of_nodup (distinct : (entries.map Prod.fst).Nodup) :
    (name, value) ∈ entries ↔ entries.lookup name = some value := by
  refine ⟨fun member => ?_, mem_of_lookup⟩
  induction entries with
  | nil => simp at member
  | cons e entries ih =>
    obtain ⟨new, distinct⟩ := List.nodup_cons.mp distinct
    rw [lookup_cons]
    rcases List.mem_cons.mp member with rfl | later
    · exact if_pos rfl
    · have other : name ≠ e.1 := fun same => new (same ▸ List.mem_map_of_mem later)
      rw [if_neg other]
      exact ih distinct later

theorem mem_iff_lookup (sorted : Sorted entries) :
    (name, value) ∈ entries ↔ entries.lookup name = some value :=
  mem_iff_lookup_of_nodup (nodup_names sorted)

theorem exists_mem_sort {e : String × α} (member : e ∈ entries) : ∃ value, (e.1, value) ∈ sort entries := by
  cases found : entries.reverse.lookup e.1 with
  | none =>
    have absent := List.lookup_eq_none_iff.mp found e (List.mem_reverse.mpr member)
    simp at absent
  | some value =>
    rw [← lookup_sort_reverse] at found
    exact ⟨value, mem_of_lookup found⟩

end Entries

namespace Json

variable {items : List Json} {members : List (String × Json)} {name : String} {value json : Json}

@[elab_as_elim]
theorem byParts {motive : Json → Prop} (null : motive .null) (bool : ∀ b, motive (.bool b))
    (number : ∀ n, motive (.number n)) (string : ∀ s, motive (.string s))
    (array : ∀ items, (∀ item ∈ items, motive item) → motive (.array items))
    (object : ∀ members, (∀ m ∈ members, motive m.2) → motive (.object members)) (json : Json) :
    motive json := by
  cases json with
  | null => exact null
  | bool b => exact bool b
  | number n => exact number n
  | string s => exact string s
  | array items =>
    refine array items (fun item inside => ?_)
    have smaller := List.sizeOf_lt_of_mem inside
    exact byParts null bool number string array object item
  | object members =>
    refine object members (fun m inside => ?_)
    have smaller := List.sizeOf_lt_of_mem inside
    exact byParts null bool number string array object m.2
termination_by sizeOf json
decreasing_by
  · simp only [Json.array.sizeOf_spec]
    omega
  · have part : sizeOf m.2 < sizeOf m := by
      cases m
      simp
    simp only [Json.object.sizeOf_spec]
    omega

namespace Draft

theorem ofItems_eq_map (items : List Json) : ofItems items = items.map ofJson := by
  induction items with
  | nil => rfl
  | cons item items ih => simp [ofItems, ih]

theorem ofMembers_eq_map (members : List (String × Json)) :
    ofMembers members = members.map (fun m => (m.1, ofJson m.2)) := by
  induction members with
  | nil => rfl
  | cons member members ih => simp [ofMembers, ih]

theorem itemsFault?_eq_none_iff {items : List Draft} :
    itemsFault? items = none ↔ ∀ item ∈ items, item.fault? = none := by
  induction items with
  | nil => simp [itemsFault?]
  | cons item items ih => simp [itemsFault?, ih]

theorem membersFault?_eq_none_iff {members : List (String × Draft)} :
    membersFault? members = none ↔ ∀ m ∈ members, m.2.fault? = none := by
  induction members with
  | nil => simp [membersFault?]
  | cons member members ih => simp [membersFault?, ih]

theorem fault?_ofJson (json : Json) : (ofJson json).fault? = none := by
  induction json using Json.byParts with
  | array items ih =>
    rw [ofJson, fault?, Option.or_none, itemsFault?_eq_none_iff, ofItems_eq_map]
    exact List.forall_mem_map.mpr ih
  | object members ih =>
    rw [ofJson, fault?, Option.or_none, membersFault?_eq_none_iff, ofMembers_eq_map]
    intro d member
    obtain ⟨m, inside, rfl⟩ := List.mem_map.mp (Entries.mem_of_mem_sort member)
    exact ih m inside
  | _ => simp [ofJson, fault?]

end Draft

theorem member?_object (members : List (String × Json)) (name : String) :
    (object members).member? name = members.reverse.lookup name := by
  rw [member?]
  generalize members.reverse = latest
  induction latest with
  | nil => rfl
  | cons m earlier ih =>
    rw [List.find?_cons, Entries.lookup_cons]
    by_cases same : m.1 = name
    · simp [same]
    · have different : (m.1 == name) = false := beq_eq_false_iff_ne.mpr same
      rw [if_neg (Ne.symm same), different]
      exact ih

theorem mem_of_member? (found : (object members).member? name = some value) :
    (name, value) ∈ members := by
  rw [member?_object] at found
  exact List.mem_reverse.mp (mem_of_lookup found)

theorem present_eq_none : json.present = none ↔ json = null := by
  cases json <;> simp [present]

theorem present_eq_some : json.present = some value ↔ json = value ∧ value ≠ null := by
  cases json <;> simp +contextual [present, eq_comm]

@[elab_as_elim]
theorem byPushes {motive : Json → Prop}
    (step : ∀ json : Json, (∀ value, json.under? .push = some value → motive value) →
      (∀ items, json = array items → ∀ item ∈ items, motive item) → motive json) (json : Json) :
    motive json := by
  induction json using byParts with
  | array items ih =>
    refine step _ (fun value found => ih value (List.mem_of_getElem? found)) ?_
    intro items' same
    exact Json.array.inj same ▸ ih
  | object members ih => exact step _ (fun value found => ih _ (mem_of_member? found)) (by simp)
  | _ => exact step _ (by simp [under?, member?]) (by simp)

theorem lookup_ofMembers (members : List (String × Json)) (name : String) :
    (Entries.sort (Draft.ofMembers members)).lookup name =
      ((object members).member? name).map Draft.ofJson := by
  rw [Entries.lookup_sort_reverse, Draft.ofMembers_eq_map, ← List.map_reverse, member?_object]
  exact Entries.lookup_map Function.injective_id Draft.ofJson members.reverse name

/-! ### Rules as members -/

def parts : Json → List (String × Draft)
  | object members => Entries.sort (Draft.ofMembers members)
  | array items => (Field.all.map Field.name).zip (Draft.ofItems items)
  | _ => []

theorem getElem?_names {i : Nat} {field : Field} :
    (Field.all.map Field.name)[i]? = some field.name ↔ i = Field.all.idxOf field := by
  rw [List.getElem?_map, Option.map_eq_some_iff]
  constructor
  · rintro ⟨other, found, same⟩
    obtain rfl := Field.name_injective same
    obtain ⟨inside, rfl⟩ := List.getElem?_eq_some_iff.mp found
    exact (Field.all_nodup.idxOf_getElem i inside).symm
  · rintro rfl
    exact ⟨field, List.getElem?_idxOf field.mem_all, rfl⟩

theorem mem_parts {field : Field} {d : Draft} :
    (field.name, d) ∈ json.parts ↔ ∃ value, json.under? field = some value ∧ Draft.ofJson value = d := by
  cases json with
  | object members =>
    rw [parts, Entries.mem_iff_lookup (Entries.sorted_sort _), lookup_ofMembers]
    exact Option.map_eq_some_iff
  | array items =>
    rw [parts, List.mem_iff_getElem?, Draft.ofItems_eq_map]
    simp only [List.getElem?_zip_eq_some, getElem?_names, exists_eq_left, under?]
    rw [List.getElem?_map]
    exact Option.map_eq_some_iff
  | _ => simp [parts, under?, member?]

theorem map_fst_zip_sublist {α β : Type} (xs : List α) (ys : List β) :
    ((xs.zip ys).map Prod.fst).Sublist xs := by
  induction xs generalizing ys with
  | nil => simp
  | cons x xs ih =>
    cases ys with
    | nil => simp
    | cons y ys => exact (ih ys).cons_cons x

theorem nodup_parts (json : Json) : (json.parts.map Prod.fst).Nodup := by
  cases json with
  | object members => exact Entries.nodup_names (Entries.sorted_sort _)
  | array items =>
    exact (Field.all_nodup.map Field.name_injective).sublist (map_fst_zip_sublist _ _)
  | _ => exact .nil

theorem Shaped.named (shaped : json.Shaped) {m : String × Draft} (member : m ∈ json.parts) :
    ∃ field : Field, m.1 = field.name := by
  cases json with
  | object members =>
    have inside := Entries.mem_of_mem_sort member
    rw [Draft.ofMembers_eq_map] at inside
    obtain ⟨m, written, rfl⟩ := List.mem_map.mp inside
    exact shaped m written
  | array items =>
    have named := (map_fst_zip_sublist _ _).subset (List.mem_map_of_mem member)
    obtain ⟨field, _, same⟩ := List.mem_map.mp named
    exact ⟨field, same.symm⟩
  | _ => exact absurd shaped id

end Json

namespace Decode

variable {json : Json} {rule : Rule}

theorem rule?_of_shaped (shaped : json.Shaped) : rule? (Draft.ofJson json) = members? {} [] json.parts := by
  cases json with
  | object members => rfl
  | array items =>
    have short : (Draft.ofItems items).length ≤ Field.all.length := by
      rw [Draft.ofItems_eq_map, List.length_map]
      exact shaped
    rw [Draft.ofJson, rule?, positions?_eq Field.all_nodup (fun _ _ => List.not_mem_nil), if_pos short]
    rfl
  | _ => exact absurd shaped id

theorem shaped_of_rule? (made : rule? (Draft.ofJson json) = some rule) : json.Shaped := by
  cases json with
  | object members =>
    have each := (members?_isSome_iff (Json.object members).nodup_parts (by simp)).mp ⟨rule, made⟩
    intro m written
    obtain ⟨d, inside⟩ := Entries.exists_mem_sort
      (Json.Draft.ofMembers_eq_map members ▸ List.mem_map_of_mem written)
    obtain ⟨field, _, same, _⟩ := each _ inside
    exact ⟨field, same⟩
  | array items =>
    rw [Draft.ofJson, rule?, positions?_eq Field.all_nodup (fun _ _ => List.not_mem_nil)] at made
    split at made
    · rename_i short
      rwa [Draft.ofItems_eq_map, List.length_map] at short
    · simp at made
  | _ => simp [Draft.ofJson, rule?] at made

/-! ### What stands under a field -/

section

variable {v : Json} {field : Field} {source : Rule}

theorem string_ofJson {s : String} : string (Draft.ofJson v) = .ok s ↔ v = .string s := by
  cases v <;> simp [Draft.ofJson, string]

theorem boolean_ofJson {b : Bool} : boolean (Draft.ofJson v) = .ok b ↔ v = .bool b := by
  cases v <;> simp [Draft.ofJson, boolean]

theorem strings?_ofItems {items : List Json} {kinds : List String} :
    strings? (Draft.ofItems items) = some kinds ↔ items = kinds.map .string := by
  induction items generalizing kinds with
  | nil => cases kinds <;> simp [Draft.ofItems, strings?]
  | cons item items ih =>
    cases item with
    | string s => cases kinds <;> simp [Draft.ofItems, Draft.ofJson, strings?, ih, and_comm]
    | _ => cases kinds <;> simp [Draft.ofItems, Draft.ofJson, strings?]

theorem token_ofJson {spec : TokenSpec} : token (Draft.ofJson v) = .ok spec ↔ v = spec.toJson := by
  have clean := Draft.fault?_ofJson v
  cases v with
  | string s => cases spec <;> simp [Draft.ofJson, token, TokenSpec.toJson]
  | array items =>
    rw [Draft.ofJson] at clean ⊢
    cases spec with
    | single kind =>
      cases found : strings? (Draft.ofItems items) <;> simp [token, clean, found, TokenSpec.toJson]
    | groups kinds =>
      have read : strings? (Draft.ofItems items) = some kinds ↔ _ := strings?_ofItems
      cases found : strings? (Draft.ofItems items) <;>
        simp [token, clean, found, TokenSpec.toJson, ← read]
  | _ => cases spec <;> simp_all [Draft.ofJson, token, TokenSpec.toJson]

theorem optional_ofJson {α : Type} {decode : Draft → Except DecodeError α} {write : α → Json}
    (right : ∀ v a, decode (Draft.ofJson v) = .ok a ↔ v = write a) {o : Option α} :
    optional decode (Draft.ofJson v) = .ok o ↔ o.map write = v.present := by
  have there (v : Json) :
      (decode (Draft.ofJson v)).map some = .ok o ↔ o.map write = some v := by
    cases found : decode (Draft.ofJson v) with
    | error e =>
      have none_ (a : α) : write a ≠ v := fun same => by simp [(right v a).mpr same.symm] at found
      simp [Except.map, none_]
    | ok a =>
      obtain rfl := (right v a).mp found
      have unique (b : α) : write b = write a ↔ a = b := by
        rw [eq_comm, ← right, found, Except.ok.injEq]
      cases o <;> simp [Except.map, unique]
  cases v with
  | null => cases o <;> simp [Draft.ofJson, optional, Json.present]
  | _ => exact there _

theorem map_optional_ofJson {α : Type} {decode : Draft → Except DecodeError α} {write : α → Json}
    (set : Option α → Rule) (get : Rule → Option α) (back : ∀ o, get (set o) = o)
    (right : ∀ v a, decode (Draft.ofJson v) = .ok a ↔ v = write a) :
    (optional decode (Draft.ofJson v)).map set = .ok source ↔
      source = set (get source) ∧ (get source).map write = v.present := by
  rw [← optional_ofJson right]
  constructor
  · intro made
    cases found : optional decode (Draft.ofJson v) with
    | error e => simp [found, Except.map] at made
    | ok o =>
      rw [found] at made
      obtain rfl : set o = source := Except.ok.inj made
      rw [back]
      exact ⟨rfl, rfl⟩
  · rintro ⟨same, read⟩
    rw [read]
    exact congrArg Except.ok same.symm

theorem part_ofJson (plain : field ≠ .push) :
    part field (Draft.ofJson v) = .ok source ↔
      source = Rule.put {} source field ∧ source.jsonAt field = v.present := by
  cases field with
  | token => exact map_optional_ofJson _ Rule.token (fun _ => rfl) (fun _ _ => token_ofJson)
  | regex => exact map_optional_ofJson _ Rule.regex (fun _ => rfl) (fun _ _ => string_ofJson)
  | next => exact map_optional_ofJson _ Rule.next (fun _ => rfl) (fun _ _ => string_ofJson)
  | push => exact absurd rfl plain
  | defaultToken => exact map_optional_ofJson _ Rule.defaultToken (fun _ => rfl) (fun _ _ => string_ofJson)
  | includes => exact map_optional_ofJson _ Rule.includes (fun _ => rfl) (fun _ _ => string_ofJson)
  | caseInsensitive =>
    exact map_optional_ofJson _ Rule.caseInsensitive (fun _ => rfl) (fun _ _ => boolean_ofJson)
  | comment => exact map_optional_ofJson _ Rule.comment (fun _ => rfl) (fun _ _ => string_ofJson)

theorem fieldForm_iff (plain : field ≠ .push) :
    Json.FieldForm field v ↔ ∃ source : Rule, source.jsonAt field = v.present := by
  constructor
  · intro form
    cases form with
    | null => exact ⟨{}, by cases field <;> rfl⟩
    | kind name => exact ⟨{ token := some (.single name) }, rfl⟩
    | kinds names => exact ⟨{ token := some (.groups names) }, rfl⟩
    | rules => exact absurd rfl plain
    | state => exact absurd rfl plain
    | flag value => exact ⟨{ caseInsensitive := some value }, rfl⟩
    | text other s =>
      cases field with
      | regex => exact ⟨{ regex := some s }, rfl⟩
      | next => exact ⟨{ next := some s }, rfl⟩
      | defaultToken => exact ⟨{ defaultToken := some s }, rfl⟩
      | includes => exact ⟨{ includes := some s }, rfl⟩
      | comment => exact ⟨{ comment := some s }, rfl⟩
      | _ => simp at other
  · rintro ⟨source, written⟩
    cases found : v.present with
    | none =>
      rw [Json.present_eq_none.mp found]
      exact .null field
    | some w =>
      obtain ⟨rfl, _⟩ := Json.present_eq_some.mp found
      rw [found] at written
      cases field with
      | token =>
        obtain ⟨spec, _, rfl⟩ := Option.map_eq_some_iff.mp written
        cases spec with
        | single kind => exact .kind kind
        | groups kinds => exact .kinds kinds
      | push => exact absurd rfl plain
      | caseInsensitive =>
        obtain ⟨value, _, rfl⟩ := Option.map_eq_some_iff.mp written
        exact .flag value
      | _ =>
        obtain ⟨value, _, rfl⟩ := Option.map_eq_some_iff.mp written
        exact .text (by decide) value

theorem part_isOk_iff (plain : field ≠ .push) :
    (∃ source, part field (Draft.ofJson v) = .ok source) ↔ Json.FieldForm field v := by
  rw [fieldForm_iff plain]
  constructor
  · rintro ⟨source, parted⟩
    exact ⟨source, ((part_ofJson plain).mp parted).2⟩
  · rintro ⟨source, written⟩
    have kept : (Rule.put {} source field).jsonAt field = source.jsonAt field := by
      rw [Rule.jsonAt_put, if_pos rfl]
    refine ⟨Rule.put {} source field, (part_ofJson plain).mpr ⟨?_, kept.trans written⟩⟩
    cases field <;> rfl

theorem part_push_null : part .push (Draft.ofJson .null) = .ok {} := rfl

theorem part_push (there : v ≠ .null) : part .push (Draft.ofJson v) = .ok source ↔
    ∃ target, push? (Draft.ofJson v) = some target ∧ source = { push := some target } := by
  have given : optional (within (push? (Draft.ofJson v))) (Draft.ofJson v) =
      (within (push? (Draft.ofJson v)) (Draft.ofJson v)).map some := by
    cases v with
    | null => exact absurd rfl there
    | _ => rfl
  rw [part, setField, given]
  cases push? (Draft.ofJson v) <;> simp [within, Except.map, eq_comm]

theorem push?_ofJson {target : Push} : push? (Draft.ofJson v) = some target ↔
    (∃ name, v = .string name ∧ target = .state name) ∨
      ∃ items entries, v = .array items ∧ target = .rules entries ∧
        List.Forall₂ (fun item entry => rule? (Draft.ofJson item) = some entry) items entries := by
  cases v with
  | string name => simp [Draft.ofJson, push?, eq_comm]
  | array items =>
    have read (entries : List Rule) : rules? (Draft.ofItems items) = some entries ↔
        List.Forall₂ (fun item entry => rule? (Draft.ofJson item) = some entry) items entries := by
      rw [rules?_eq_some_iff, Draft.ofItems_eq_map, List.forall₂_map_left_iff]
    rw [Draft.ofJson, push?, Option.map_eq_some_iff]
    simp [read, and_comm, eq_comm (a := target)]
  | _ => simp [Draft.ofJson, push?]

theorem exists_forall₂_iff {α β : Type} {R : α → β → Prop} {xs : List α} :
    (∃ ys, List.Forall₂ R xs ys) ↔ ∀ x ∈ xs, ∃ y, R x y := by
  induction xs with
  | nil => simp
  | cons x xs ih =>
    rw [List.forall_mem_cons, ← ih]
    constructor
    · rintro ⟨_, each⟩
      cases each with
      | cons first others => exact ⟨⟨_, first⟩, ⟨_, others⟩⟩
    · rintro ⟨⟨y, first⟩, ⟨ys, others⟩⟩
      exact ⟨y :: ys, .cons first others⟩

end

end Decode

end StackLexer
