import StackLexer.Proofs.Settings.Layering

/-! Which value a field is made from.
Of each field only the value that was set last is left, and it is converted only then. What lies under it
does not matter, nor does what no field asks for, nor where overrides stand among the files. -/

namespace StackLexer

namespace Settings

open SettingValue (Entries)

variable {layers : List SettingsLayer}

/-- The value that a field is made from: that of the last override of the field, or else that of the last
file that sets it, or else the default. -/
def winning (layers : List SettingsLayer) (field : String) : Option SettingValue :=
  (layers.reverse.findSome? (SettingsLayer.overriding? field)).or
    ((layers.reverse.findSome? (SettingsLayer.given? field)).or (defaults.lookup field))

def Converts {α : Type} (layers : List SettingsLayer) (name : String)
    (read : String → SettingValue → Except SettingsFault α) (a : α) : Prop :=
  ∃ v, winning layers name = some v ∧ read (tableName ++ "." ++ name) v = .ok a

theorem ofLayers_eq_ofEntries (plain : ∀ layer ∈ layers, layer.Plain) :
    ∃ entries, (∀ name, entries.lookup name = winning layers name) ∧
      ofLayers layers = ofEntries entries := by
  have none_ : SetFields [] := by simp [SetFields]
  obtain ⟨found, collected, fields, last⟩ := overrides_plain none_ plain
  obtain ⟨root, laid, holds⟩ := layFiles_plain holds_defaults plain
  obtain ⟨entries, there, found_⟩ := putAll_fields fields holds
  refine ⟨entries, fun name => ?_, ?_⟩
  · simp only [found_, last, winning, List.reverse_nil, List.lookup_nil, Option.or_none]
  · simp only [ofLayers, valuesOfLayers, collected, laid, bind, Except.bind, pure, Except.pure]
    rw [ofValues, there]

theorem bind_eq_ok_iff {ε α β : Type} {x : Except ε α} {f : α → Except ε β} {b : β} :
    (x >>= f) = .ok b ↔ ∃ a, x = .ok a ∧ f a = .ok b := by
  cases x <;> simp [bind, Except.bind]

theorem field_eq_ok_iff {α : Type} {entries : Entries} {name : String}
    {read : String → SettingValue → Except SettingsFault α} {a : α} :
    field entries name read = .ok (some a) ↔
      ∃ v, entries.lookup name = some v ∧ read (tableName ++ "." ++ name) v = .ok a := by
  rw [field]
  cases entries.lookup name with
  | none => simp
  | some v =>
    simp only [Option.some.injEq, exists_eq_left']
    cases read (tableName ++ "." ++ name) v <;> simp [Except.map]

theorem required_eq_ok_iff {α : Type} {name : String} {found : Option α} {a : α} :
    required name found = .ok a ↔ found = some a := by
  cases found <;> simp [required]

theorem ofEntries_eq_ok_iff {entries : Entries} {s : Settings} :
    ofEntries entries = .ok s ↔
      field entries "fallback_token" SettingValue.text = .ok (some s.fallbackToken) ∧
        field entries "max_stack_depth" SettingValue.count = .ok (some s.maxStackDepth) ∧
        field entries "max_zero_width_steps" SettingValue.count = .ok (some s.maxZeroWidthSteps) ∧
        field entries "merge_unmatched" SettingValue.flag = .ok (some s.mergeUnmatched) := by
  simp only [ofEntries, bind_eq_ok_iff, required_eq_ok_iff]
  constructor
  · rintro ⟨_, fallback, _, depth, _, steps, _, merge, _, rfl, _, rfl, _, rfl, _, rfl, same⟩
    obtain rfl := Except.ok.inj same
    exact ⟨fallback, depth, steps, merge⟩
  · rintro ⟨fallback, depth, steps, merge⟩
    exact ⟨_, fallback, _, depth, _, steps, _, merge, _, rfl, _, rfl, _, rfl, _, rfl, rfl⟩

theorem ofEntries_congr {entries others : Entries}
    (same : ∀ name ∈ fieldNames, entries.lookup name = others.lookup name) :
    ofEntries entries = ofEntries others := by
  have fields {α : Type} {name : String} (names : name ∈ fieldNames)
      (read : String → SettingValue → Except SettingsFault α) :
      field entries name read = field others name read := by
    rw [field, field, same name names]
  simp only [ofEntries]
  rw [fields (by decide), fields (by decide), fields (by decide), fields (by decide)]

theorem ofEntries_eq_ok_iff_converts {entries : Entries}
    (found : ∀ name, entries.lookup name = winning layers name) {s : Settings} :
    ofEntries entries = .ok s ↔
      Converts layers "fallback_token" SettingValue.text s.fallbackToken ∧
        Converts layers "max_stack_depth" SettingValue.count s.maxStackDepth ∧
        Converts layers "max_zero_width_steps" SettingValue.count s.maxZeroWidthSteps ∧
        Converts layers "merge_unmatched" SettingValue.flag s.mergeUnmatched := by
  simp only [ofEntries_eq_ok_iff, field_eq_ok_iff, found, Converts]

theorem exists_winning (layers : List SettingsLayer) {name : String} (names : name ∈ fieldNames) :
    ∃ v, winning layers name = some v := by
  have under : ∀ name ∈ fieldNames, (defaults.lookup name).isSome := by decide +kernel
  obtain ⟨v, last⟩ := Option.isSome_iff_exists.mp (under name names)
  rw [winning, last, ← Option.isSome_iff_exists]
  simp

/-! ### Limits -/

theorem floatCount_le_most (bits : UInt64) : SettingValue.floatCount bits ≤ SettingValue.most := by
  unfold SettingValue.floatCount
  cases Decimal.magnitude bits with
  | nan | zero => exact Nat.zero_le _
  | infinite =>
    dsimp only
    split
    · exact Nat.zero_le _
    · exact Nat.le_refl _
  | finite mantissa exponent narrow =>
    dsimp only
    split
    · exact Nat.zero_le _
    · split
      · exact Nat.le_refl _
      · split <;> exact Nat.min_le_left _ _

theorem textCount?_le_most {s : String} {n : Nat} (reads : SettingValue.textCount? s = some n) :
    n ≤ SettingValue.most := by
  unfold SettingValue.textCount? at reads
  extract_lets digits m at reads
  split at reads
  · simp at reads
  · split at reads
    · rename_i least
      exact Option.some.inj reads ▸ least
    · simp at reads

theorem count_le_most {key : String} {v : SettingValue} {n : Nat}
    (converts : SettingValue.count key v = .ok n) : n ≤ SettingValue.most := by
  cases v with
  | list | table => simp [SettingValue.count] at converts
  | scalar origin s =>
    cases s with
    | unit => simp [SettingValue.count] at converts
    | bool b =>
      obtain rfl := Except.ok.inj converts
      cases b <;> decide
    | float bits =>
      obtain rfl := Except.ok.inj converts
      exact floatCount_le_most bits
    | integer m =>
      simp only [SettingValue.count] at converts
      split at converts
      · rename_i small
        obtain rfl := Except.ok.inj converts
        omega
      · simp at converts
    | text s =>
      simp only [SettingValue.count] at converts
      split at converts
      · exact Except.ok.inj converts ▸ by decide
      · split at converts
        · exact Except.ok.inj converts ▸ by decide
        · split at converts
          · rename_i reads
            exact Except.ok.inj converts ▸ textCount?_le_most reads
          · simp at converts

/-! ### The order of layers -/

theorem layFiles_filter (root : Entries) (layers : List SettingsLayer) :
    layFiles root (layers.filter (·.isFile)) = layFiles root layers := by
  induction layers generalizing root with
  | nil => rfl
  | cons layer rest ih =>
    cases layer with
    | file name text isRequired =>
      rw [List.filter_cons_of_pos rfl, layFiles, layFiles]
      simp only [ih]
    | override key value =>
      rw [List.filter_cons_of_neg Bool.false_ne_true, layFiles, ih]

theorem overrides_filter (found : List (SettingPath × SettingValue)) (layers : List SettingsLayer) :
    overrides found (layers.filter (!·.isFile)) = overrides found layers := by
  induction layers generalizing found with
  | nil => rfl
  | cons layer rest ih =>
    cases layer with
    | file name text isRequired =>
      rw [List.filter_cons_of_neg Bool.false_ne_true, overrides, ih]
    | override key value =>
      rw [List.filter_cons_of_pos rfl, overrides, overrides]
      simp only [ih]

theorem winning_absent (front back : List SettingsLayer) (name : String) :
    winning (front ++ .file name none false :: back) = winning (front ++ back) := by
  funext field
  simp [winning, List.findSome?_append, List.findSome?_cons, SettingsLayer.given?,
    SettingsLayer.overriding?]

/-- With layers that set nothing but scalars in the table of the scanner, the settings are there if and only
if the winning value of each field, of which there always is one, converts to what the field holds, and the
fields are what these values convert to; the limits have 64 bits at most. Nothing else matters: not the other values and keys, no optional
file that is absent, and not where the overrides stand among the files. -/
theorem ofLayers_plain (plain : ∀ layer ∈ layers, layer.Plain) :
    (∀ name ∈ fieldNames, ∃ v, winning layers name = some v) ∧
      (∀ s, ofLayers layers = .ok s ↔
        Converts layers "fallback_token" SettingValue.text s.fallbackToken ∧
          Converts layers "max_stack_depth" SettingValue.count s.maxStackDepth ∧
          Converts layers "max_zero_width_steps" SettingValue.count s.maxZeroWidthSteps ∧
          Converts layers "merge_unmatched" SettingValue.flag s.mergeUnmatched) ∧
      (∀ s, ofLayers layers = .ok s → s.maxStackDepth < 2 ^ 64 ∧ s.maxZeroWidthSteps < 2 ^ 64) ∧
      (∀ others, (∀ layer ∈ others, layer.Plain) →
        (∀ name ∈ fieldNames, winning others name = winning layers name) →
          ofLayers others = ofLayers layers) ∧
      (∀ front name back, layers = front ++ .file name none false :: back →
        ofLayers (front ++ back) = ofLayers layers) ∧
      ∀ others, others.filter (·.isFile) = layers.filter (·.isFile) →
        others.filter (!·.isFile) = layers.filter (!·.isFile) → ofLayers others = ofLayers layers := by
  obtain ⟨entries, found, made⟩ := ofLayers_eq_ofEntries plain
  have alike : ∀ others, (∀ layer ∈ others, layer.Plain) →
      (∀ name ∈ fieldNames, winning others name = winning layers name) →
        ofLayers others = ofLayers layers := by
    intro others plain' same
    obtain ⟨entries', found', made'⟩ := ofLayers_eq_ofEntries plain'
    rw [made, made']
    exact ofEntries_congr (fun name names => by rw [found, found', same name names])
  have converts (s : Settings) := made ▸ ofEntries_eq_ok_iff_converts found (s := s)
  refine ⟨fun _ => exists_winning layers, converts, fun s built => ?_, alike, ?_, ?_⟩
  · obtain ⟨_, ⟨_, _, depth⟩, ⟨_, _, steps⟩, _⟩ := (converts s).mp built
    exact ⟨Nat.lt_succ_of_le (count_le_most depth), Nat.lt_succ_of_le (count_le_most steps)⟩
  · rintro front name back rfl
    refine alike (front ++ back) (fun layer inside => plain layer ?_) (fun field _ => ?_)
    · exact ((List.sublist_cons_self _ back).append_left front).mem inside
    · rw [winning_absent]
  · intro others files set
    simp only [ofLayers, valuesOfLayers]
    rw [← overrides_filter [] others, ← layFiles_filter _ others, files, set, overrides_filter,
      layFiles_filter]

def patch : String := "[tokenizer]\nmax_stack_depth = \"deep\"\nfallback_token = 3\nnote = 1\n"

theorem patch_reads :
    Toml.document? (dropMark patch) =
      some [(tableName, .table [("max_stack_depth", .string "deep"), ("fallback_token", .integer 3),
        ("note", .integer 1)])] := by
  cbv

def patchwork : List SettingsLayer :=
  [.override "tokenizer.max_stack_depth" (.scalar none (.text "deeper")),
    .file "patch.toml" (some patch) true, .file "absent.toml" none false,
    .override "tokenizer.max_stack_depth" (.scalar none (.text "7"))]

theorem patchwork_settings :
    (∀ layer ∈ patchwork, layer.Plain) ∧
      ofLayers patchwork =
        .ok { fallbackToken := "3", maxStackDepth := 7, maxZeroWidthSteps := 32, mergeUnmatched := true } := by
  have key : "tokenizer.max_stack_depth" = tableName ++ "." ++ "max_stack_depth" := by decide
  have plain : ∀ layer ∈ patchwork, layer.Plain := by
    simp only [patchwork, key, List.forall_mem_cons, List.not_mem_nil, false_imp_iff, implies_true,
      and_true]
    refine ⟨.override (by decide) _ _, .table patch_reads ?_ ?_, .absent _, .override (by decide) _ _⟩
    · decide +kernel
    · decide +kernel
  have files (field : String) : patchwork.reverse.findSome? (SettingsLayer.given? field) =
      (List.lookup field [("note", .integer 1), ("fallback_token", .integer 3),
        ("max_stack_depth", .string "deep")]).map (SettingValue.ofToml "patch.toml") := by
    simp only [patchwork, List.reverse_cons, List.reverse_nil, List.nil_append, List.cons_append,
      List.findSome?_cons, List.findSome?_nil, SettingsLayer.given?, patch_reads, if_true]
    cases List.lookup field _ <;> rfl
  have fallback :
      winning patchwork "fallback_token" = some (.scalar (some "patch.toml") (.integer 3)) := by
    rw [winning, files]
    cbv
  have depth : winning patchwork "max_stack_depth" = some (.scalar none (.text "7")) := by
    rw [winning, files]
    cbv
  have steps : winning patchwork "max_zero_width_steps" = some (.scalar none (.integer 32)) := by
    rw [winning, files]
    cbv
  have merge : winning patchwork "merge_unmatched" = some (.scalar none (.bool true)) := by
    rw [winning, files]
    cbv
  have seven : SettingValue.count (tableName ++ "." ++ "max_stack_depth") (.scalar none (.text "7")) =
      .ok 7 := by cbv
  refine ⟨plain, ((ofLayers_plain plain).2.1 _).mpr ⟨?_, ?_, ?_, ?_⟩⟩
  · exact ⟨_, fallback, rfl⟩
  · exact ⟨_, depth, seven⟩
  · exact ⟨_, steps, rfl⟩
  · exact ⟨_, merge, rfl⟩

end Settings

end StackLexer
