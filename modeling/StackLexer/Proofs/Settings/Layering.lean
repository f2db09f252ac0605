import Mathlib
import StackLexer.Settings.Layers

/-! What layers leave in the table of the scanner.
Files are laid one over the other, and then the overrides over all of them. In a table that is only given
scalars each key keeps the value that was set last. -/

namespace StackLexer

def Toml.Value.isScalar : Toml.Value → Bool
  | .string _ | .integer _ | .float _ | .bool _ => true
  | .date _ | .array _ | .table _ => false

namespace Settings

def fieldNames : List String :=
  ["fallback_token", "max_stack_depth", "max_zero_width_steps", "merge_unmatched"]

def defaults : SettingValue.Entries :=
  (({} : Settings).toValues.lookup tableName).elim [] SettingValue.entries

end Settings

namespace SettingsLayer

open Settings (tableName fieldNames)

/-- Layers that set nothing but scalars in the table of the scanner. Files are there if they have to be, and
their keys are in small letters; overrides set fields. -/
inductive Plain : SettingsLayer → Prop
  | absent (name : String) : Plain (.file name none false)
  | empty {name text : String} {isRequired : Bool}
      (reads : Toml.document? (Settings.dropMark text) = some []) :
      Plain (.file name (some text) isRequired)
  | table {name text : String} {isRequired : Bool} {pairs : List (String × Toml.Value)}
      (reads : Toml.document? (Settings.dropMark text) = some [(tableName, .table pairs)])
      (small : ∀ pair ∈ pairs, Unicode.lowerText pair.1 = pair.1)
      (scalars : ∀ pair ∈ pairs, pair.2.isScalar) : Plain (.file name (some text) isRequired)
  | override {field : String} (names : field ∈ fieldNames) (origin : Option String)
      (s : SettingScalar) : Plain (.override (tableName ++ "." ++ field) (.scalar origin s))

def given? (field : String) : SettingsLayer → Option SettingValue
  | .file name (some text) _ =>
    match Toml.document? (Settings.dropMark text) with
    | some [(key, .table pairs)] =>
      if key = tableName then (pairs.reverse.lookup field).map (.ofToml name) else none
    | _ => none
  | _ => none

def overriding? (field : String) : SettingsLayer → Option SettingValue
  | .override key value => if key = tableName ++ "." ++ field then some value else none
  | .file .. => none

def isFile : SettingsLayer → Bool
  | .file .. => true
  | .override .. => false

end SettingsLayer

theorem lookup_cons_eq {α β : Type} [DecidableEq α] (key other : α) (value : β) (rest : List (α × β)) :
    ((key, value) :: rest).lookup other = if other = key then some value else rest.lookup other := by
  rw [List.lookup_cons]
  by_cases same : other = key
  · simp [same]
  · simp [same, beq_eq_false_iff_ne.mpr same]

namespace SettingValue

variable {entries : Entries} {pairs : List (String × Toml.Value)}

theorem lookup_putEntry (entries : Entries) (key other : String) (value : SettingValue) :
    (putEntry entries key value).lookup other =
      if other = key then some value else entries.lookup other := by
  induction entries with
  | nil => exact lookup_cons_eq key other value []
  | cons entry rest ih =>
    obtain ⟨k, v⟩ := entry
    rw [putEntry]
    split
    · rename_i here
      rw [lookup_cons_eq, lookup_cons_eq, here]
      split <;> rfl
    · rename_i elsewhere
      rw [lookup_cons_eq, lookup_cons_eq, ih]
      split
      · rename_i first
        rw [if_neg (first ▸ elsewhere)]
      · rfl

theorem assign_scalar (here : Option SettingValue) (origin : Option String) (s : SettingScalar) :
    assign here (.scalar origin s) = .scalar origin s := by
  rw [assign]
  simp

theorem assign_ofToml (here : Option SettingValue) (origin : String) {v : Toml.Value}
    (scalar : v.isScalar) : assign here (ofToml origin v) = ofToml origin v := by
  cases v with
  | string | integer | float | bool => exact assign_scalar here _ _
  | date | array | table => simp [Toml.Value.isScalar] at scalar

/-- The entries of a file come over those of a table, the last of each key. -/
theorem assignAll_pairs (origin : String) (small : ∀ pair ∈ pairs, Unicode.lowerText pair.1 = pair.1)
    (scalars : ∀ pair ∈ pairs, pair.2.isScalar) (entries : Entries) :
    ∃ result, assignAll (table entries) (entriesOfToml origin pairs) = table result ∧
      ∀ key, result.lookup key =
        ((pairs.reverse.lookup key).map (ofToml origin)).or (entries.lookup key) := by
  induction pairs generalizing entries with
  | nil => exact ⟨entries, by rw [entriesOfToml, assignAll], fun _ => rfl⟩
  | cons pair rest ih =>
    obtain ⟨k, v⟩ := pair
    rw [List.forall_mem_cons] at small scalars
    obtain ⟨result, assigned, found⟩ := ih small.2 scalars.2 (putEntry entries k (ofToml origin v))
    refine ⟨result, ?_, fun key => ?_⟩
    · rw [entriesOfToml, assignAll, small.1, SettingValue.entries, assign_ofToml _ _ scalars.1]
      exact assigned
    · rw [found, lookup_putEntry, List.reverse_cons, List.lookup_append, lookup_cons_eq]
      cases rest.reverse.lookup key with
      | some later => rfl
      | none => split <;> rfl

end SettingValue

namespace Settings

open SettingValue (Entries)

def Holds (root : Entries) (value? : String → Option SettingValue) : Prop :=
  ∃ entries, root.lookup tableName = some (.table entries) ∧ ∀ field, entries.lookup field = value? field

variable {root : Entries} {value? : String → Option SettingValue} {layers : List SettingsLayer}

theorem holds_defaults : Holds ({} : Settings).toValues (defaults.lookup ·) := ⟨_, rfl, fun _ => rfl⟩

theorem ofString_tableName : SettingPath.ofString tableName = .ok ⟨tableName, []⟩ := by cbv

theorem lowerText_tableName : Unicode.lowerText tableName = tableName := by decide +kernel

theorem setEntry_tableName (root : Entries) (value : SettingValue) :
    setEntry root tableName value =
      SettingValue.putEntry root tableName (SettingValue.assign (root.lookup tableName) value) := by
  rw [setEntry, ofString_tableName]
  simp only [SettingValue.putAt, SettingValue.put, lowerText_tableName, SettingValue.entries,
    Option.map_some, Option.getD_some]

theorem Holds.put (value : SettingValue) {entries : Entries} (table : value = .table entries)
    (found : ∀ field, entries.lookup field = value? field) :
    Holds (SettingValue.putEntry root tableName value) value? :=
  ⟨entries, by rw [SettingValue.lookup_putEntry, if_pos rfl, table], found⟩

/-! ### Files -/

theorem layFile_plain {name : String} {text : Option String} {isRequired : Bool}
    (holds : Holds root value?) (plain : (SettingsLayer.file name text isRequired).Plain) :
    ∃ after, layFile root name text isRequired = .ok after ∧
      Holds after (fun field =>
        ((SettingsLayer.file name text isRequired).given? field).or (value? field)) := by
  cases plain with
  | absent => exact ⟨root, rfl, holds⟩
  | empty reads =>
    refine ⟨root, by rw [layFile, reads]; rfl, ?_⟩
    simp only [SettingsLayer.given?, reads]
    exact holds
  | @table _ _ _ pairs reads small scalars =>
    obtain ⟨entries, there, found⟩ := holds
    obtain ⟨result, assigned, last⟩ := SettingValue.assignAll_pairs name small scalars entries
    refine ⟨setEntry root tableName (.ofToml name (.table pairs)), by rw [layFile, reads]; rfl, ?_⟩
    simp only [SettingsLayer.given?, reads, if_true, setEntry_tableName, SettingValue.ofToml,
      SettingValue.assign, there, Option.getD_some, assigned]
    exact Holds.put _ rfl (fun field => by rw [last, found])

theorem layFiles_plain (holds : Holds root value?) (plain : ∀ layer ∈ layers, layer.Plain) :
    ∃ after, layFiles root layers = .ok after ∧
      Holds after (fun field =>
        (layers.reverse.findSome? (SettingsLayer.given? field)).or (value? field)) := by
  -- What is laid later is found first, so that a layer only counts where those after it give nothing.
  induction layers generalizing root value? with
  | nil => exact ⟨root, rfl, holds⟩
  | cons layer rest ih =>
    rw [List.forall_mem_cons] at plain
    simp only [List.reverse_cons, List.findSome?_append, List.findSome?_singleton, Option.or_assoc]
    cases layer with
    | file name text isRequired =>
      obtain ⟨middle, laid, holds⟩ := layFile_plain holds plain.1
      obtain ⟨after, others, holds⟩ := ih holds plain.2
      exact ⟨after, by rw [layFiles, laid]; exact others, holds⟩
    | override key value =>
      obtain ⟨after, others, holds⟩ := ih holds plain.2
      exact ⟨after, others, holds⟩

/-! ### Overrides -/

def pathOf (field : String) : SettingPath := ⟨tableName, [.key field]⟩

theorem pathOf_inj {field other : String} : pathOf field = pathOf other ↔ field = other := by
  simp [pathOf]

theorem ofString_field {field : String} (names : field ∈ fieldNames) :
    SettingPath.ofString (tableName ++ "." ++ field) = .ok (pathOf field) := by
  simp only [fieldNames, List.mem_cons, List.not_mem_nil, or_false] at names
  rcases names with rfl | rfl | rfl | rfl <;> cbv

theorem lowerText_field : ∀ field ∈ fieldNames, Unicode.lowerText field = field := by decide +kernel

def SetFields (found : List (SettingPath × SettingValue)) : Prop :=
  ∀ set ∈ found, ∃ field ∈ fieldNames, ∃ origin s, set = (pathOf field, .scalar origin s)

theorem lookup_replaced (found : List (SettingPath × SettingValue)) (path other : SettingPath)
    (value : SettingValue) :
    (found.map (fun e => if e.1 = path then (path, value) else e)).lookup other =
      if other = path then (found.lookup path).map (fun _ => value) else found.lookup other := by
  induction found with
  | nil => simp
  | cons e rest ih =>
    obtain ⟨key, old⟩ := e
    rw [List.map_cons]
    by_cases here : key = path
    · simp only [here, if_true, lookup_cons_eq, ih]
      split <;> rfl
    · simp only [here, if_false, lookup_cons_eq, ih, Ne.symm here]
      by_cases other_ : other = key
      · simp only [other_, here, if_true, if_false]
      · simp only [other_, if_false]

/-- An override is the last one of its place, also where it takes the place of an earlier one. -/
theorem lookup_addOverride (found : List (SettingPath × SettingValue)) (path other : SettingPath)
    (value : SettingValue) :
    (addOverride found path value).reverse.lookup other =
      if other = path then some value else found.reverse.lookup other := by
  rw [addOverride]
  split
  · rename_i present
    have present : ∃ old, found.reverse.lookup path = some old := by
      rw [← Option.isSome_iff_exists, ← Option.ne_none_iff_isSome]
      intro absent
      have absent : found.lookup path = none := by simpa [List.lookup_eq_none_iff] using absent
      simp [absent] at present
    obtain ⟨old, present⟩ := present
    rw [← List.map_reverse, lookup_replaced, present]
    rfl
  · rw [List.reverse_append, List.reverse_singleton, List.singleton_append, lookup_cons_eq]

theorem setFields_addOverride {found : List (SettingPath × SettingValue)} (fields : SetFields found)
    {field : String} (names : field ∈ fieldNames) (origin : Option String) (s : SettingScalar) :
    SetFields (addOverride found (pathOf field) (.scalar origin s)) := by
  rw [addOverride]
  split
  · intro set member
    obtain ⟨before, inside, rfl⟩ := List.mem_map.mp member
    split
    · exact ⟨field, names, origin, s, rfl⟩
    · exact fields before inside
  · intro set member
    rcases List.mem_append.mp member with inside | last
    · exact fields set inside
    · exact ⟨field, names, origin, s, List.mem_singleton.mp last⟩

theorem overriding?_field (field name : String) (value : SettingValue) :
    SettingsLayer.overriding? field (.override (tableName ++ "." ++ name) value) =
      if field = name then some value else none := by
  have same : tableName ++ "." ++ name = tableName ++ "." ++ field ↔ field = name := by
    rw [String.append_right_inj, eq_comm]
  simp only [SettingsLayer.overriding?, same]

theorem overrides_plain {found : List (SettingPath × SettingValue)} (fields : SetFields found)
    (plain : ∀ layer ∈ layers, layer.Plain) :
    ∃ after, overrides found layers = .ok after ∧ SetFields after ∧
      ∀ field, after.reverse.lookup (pathOf field) =
        (layers.reverse.findSome? (SettingsLayer.overriding? field)).or
          (found.reverse.lookup (pathOf field)) := by
  induction layers generalizing found with
  | nil => exact ⟨found, rfl, fields, fun _ => rfl⟩
  | cons layer rest ih =>
    rw [List.forall_mem_cons] at plain
    simp only [List.reverse_cons, List.findSome?_append, List.findSome?_singleton, Option.or_assoc]
    obtain ⟨here, others⟩ := plain
    cases here with
    | absent | empty | table =>
      obtain ⟨after, collected, fields, last⟩ := ih fields others
      exact ⟨after, collected, fields, last⟩
    | @override name names origin s =>
      obtain ⟨after, collected, fields, last⟩ := ih (setFields_addOverride fields names origin s) others
      refine ⟨after, by rw [overrides, ofString_field names]; exact collected, fields, fun field => ?_⟩
      rw [last, lookup_addOverride, overriding?_field]
      simp only [pathOf_inj]
      split <;> rfl

theorem putAt_field {field : String} (names : field ∈ fieldNames) (holds : Holds root value?)
    (origin : Option String) (s : SettingScalar) :
    Holds (SettingValue.putAt root (pathOf field) (.scalar origin s)) (fun other =>
      if other = field then some (.scalar origin s) else value? other) := by
  obtain ⟨entries, there, found⟩ := holds
  simp only [SettingValue.putAt, pathOf, SettingValue.put, lowerText_tableName,
    lowerText_field field names, SettingValue.entries, Option.map_some, Option.getD_some, there,
    SettingValue.assign_scalar]
  exact Holds.put _ rfl (fun other => by rw [SettingValue.lookup_putEntry, found])

theorem putAll_fields {found : List (SettingPath × SettingValue)} (fields : SetFields found)
    (holds : Holds root value?) :
    Holds (found.foldl (fun root (path, value) => SettingValue.putAt root path value) root)
      (fun field => (found.reverse.lookup (pathOf field)).or (value? field)) := by
  induction found generalizing root value? with
  | nil => exact holds
  | cons set rest ih =>
    obtain ⟨here, others⟩ := List.forall_mem_cons.mp fields
    obtain ⟨name, names, origin, s, rfl⟩ := here
    obtain ⟨entries, there, last⟩ := ih others (putAt_field names holds origin s)
    refine ⟨entries, there, fun field => ?_⟩
    simp only [last, List.reverse_cons, List.lookup_append, lookup_cons_eq, List.lookup_nil, pathOf_inj]
    cases rest.reverse.lookup (pathOf field) with
    | some later => rfl
    | none => split <;> rfl

end Settings

end StackLexer
