import StackLexer.Command.Run
import StackLexer.Proofs.Text.Encoding

/-! What a command line has to work with.
A grammar is part of the program or comes from a file, as settings do if any are given, and the source comes
from a file or from the standard input. Each of them is told here by what is read and by what it decodes to,
along with everything that can stand in its way. -/

namespace StackLexer

namespace CommandInputs

inductive Decodes (bytes : List UInt8) : Except ReadFault String → Prop
  | text {text : String} (whole : Text.bytes text = bytes) : Decodes bytes (.ok text)
  | notText (other : ∀ text, Text.bytes text ≠ bytes) : Decodes bytes (.error .notText)

inductive Opens (inputs : CommandInputs) (path : String) : Except ReadFault String → Prop
  | read {bytes : List UInt8} {out : Except ReadFault String} (there : inputs.read path = .ok bytes)
      (decodes : Decodes bytes out) : Opens inputs path out
  | unread {reason : ReadFault} (fails : inputs.read path = .error reason) :
      Opens inputs path (.error reason)

inductive Written (path text : String) : Except LoadError RuleSet → Prop
  | yaml {set : RuleSet}
      (ending : (PathName.ofString path).extension? ∈ [some "yaml", some "yml"])
      (rules : RuleSet.ofYaml? text = some set) : Written path text (.ok set)
  | notYaml (ending : (PathName.ofString path).extension? ∈ [some "yaml", some "yml"])
      (other : RuleSet.ofYaml? text = none) : Written path text (.error (.parse "not a rule set"))
  | json {out : Except LoadError RuleSet}
      (ending : (PathName.ofString path).extension? ∉ [some "yaml", some "yml"])
      (rules : RuleSet.readJson text = out) : Written path text out

inductive Grammar [RegexEngine] (inputs : CommandInputs) (id : String) :
    Except CommandFault (RuleSet × Lexicon) → Prop
  | bundled {g : BundledGrammar} {set : RuleSet} {x : Lexicon} (known : g.id = id)
      (rules : g.ruleSet = .ok set) (loads : set.load.2 = .ok x) : Grammar inputs id (.ok (set, x))
  | bundledNotRules {g : BundledGrammar} {reason : LoadError} (known : g.id = id)
      (fails : g.ruleSet = .error reason) : Grammar inputs id (.error (.bundled id reason))
  | bundledRefused {g : BundledGrammar} {set : RuleSet} {reason : LoadError} (known : g.id = id)
      (rules : g.ruleSet = .ok set) (fails : set.load.2 = .error reason) :
      Grammar inputs id (.error (.bundled id reason))
  | file {text : String} {set : RuleSet} {x : Lexicon} (unknown : ∀ g : BundledGrammar, g.id ≠ id)
      (opens : inputs.Opens id (.ok text)) (rules : Written id text (.ok set))
      (loads : set.load.2 = .ok x) : Grammar inputs id (.ok (set, x))
  | unread {reason : ReadFault} (unknown : ∀ g : BundledGrammar, g.id ≠ id)
      (fails : inputs.Opens id (.error reason)) : Grammar inputs id (.error (.grammarUnread id reason))
  | notRules {text : String} {reason : LoadError} (unknown : ∀ g : BundledGrammar, g.id ≠ id)
      (opens : inputs.Opens id (.ok text)) (fails : Written id text (.error reason)) :
      Grammar inputs id (.error (.grammarInvalid id reason))
  | refused {text : String} {set : RuleSet} {reason : LoadError}
      (unknown : ∀ g : BundledGrammar, g.id ≠ id) (opens : inputs.Opens id (.ok text))
      (rules : Written id text (.ok set)) (fails : set.load.2 = .error reason) :
      Grammar inputs id (.error (.grammarInvalid id reason))

/-- The file that is meant by a path of settings, with its name: that at the path, or that beside it whose
name goes on with `.toml`. -/
inductive Found (inputs : CommandInputs) (path : String) : String → List UInt8 → Prop
  | there {bytes : List UInt8} (read : inputs.read path = .ok bytes) :
      Found inputs path (PathName.ofString path).text bytes
  | beside {reason : ReadFault} {other : PathName} {bytes : List UInt8}
      (absent : inputs.read path = .error reason)
      (named : (PathName.ofString path).withSuffix? ".toml" = some other)
      (read : inputs.read other.text = .ok bytes) : Found inputs path other.text bytes

def overDefaults (name : String) (entries : List (String × Toml.Value)) : SettingValue.Entries :=
  entries.foldl (fun root (key, v) => Settings.setEntry root key (.ofToml name v))
    ({} : Settings).toValues

inductive Chosen (inputs : CommandInputs) : Option String → Except CommandFault Settings → Prop
  | defaults : Chosen inputs none (.ok {})
  | missing {path : String} (nowhere : ∀ name bytes, ¬ inputs.Found path name bytes) :
      Chosen inputs (some path) (.error (.settings (.fileMissing path)))
  | notToml {path name : String} {bytes : List UInt8} (found : inputs.Found path name bytes)
      (other : Toml.document? (Settings.dropMark (Text.Utf8.toTextLossy bytes)) = none) :
      Chosen inputs (some path) (.error (.settings (.badFile name)))
  | wrong {path name : String} {bytes : List UInt8} {entries : List (String × Toml.Value)}
      {reason : SettingsFault} (found : inputs.Found path name bytes)
      (toml : Toml.document? (Settings.dropMark (Text.Utf8.toTextLossy bytes)) = some entries)
      (fails : Settings.ofValues (overDefaults name entries) = .error reason) :
      Chosen inputs (some path) (.error (.settings reason))
  | file {path name : String} {bytes : List UInt8} {entries : List (String × Toml.Value)}
      {settings : Settings} (found : inputs.Found path name bytes)
      (toml : Toml.document? (Settings.dropMark (Text.Utf8.toTextLossy bytes)) = some entries)
      (reads : Settings.ofValues (overDefaults name entries) = .ok settings) :
      Chosen inputs (some path) (.ok settings)

inductive Source (inputs : CommandInputs) : Option String → Except CommandFault String → Prop
  | file {path text : String} (opens : inputs.Opens path (.ok text)) : Source inputs (some path) (.ok text)
  | unread {path : String} {reason : ReadFault} (fails : inputs.Opens path (.error reason)) :
      Source inputs (some path) (.error (.sourceUnread path reason))
  | standard {text : String} (decodes : Decodes inputs.standard (.ok text)) : Source inputs none (.ok text)
  | notText {reason : ReadFault} (fails : Decodes inputs.standard (.error reason)) :
      Source inputs none (.error (.inputUnread reason))

variable {inputs : CommandInputs} {bytes : List UInt8} {path id document name : String}

/-! ### Texts -/

theorem exists_decodes (bytes : List UInt8) : ∃ out, Decodes bytes out := by
  by_cases whole : ∃ text, Text.bytes text = bytes
  · obtain ⟨text, whole⟩ := whole
    exact ⟨_, .text whole⟩
  · exact ⟨_, .notText (not_exists.mp whole)⟩

theorem Decodes.textOf {out : Except ReadFault String} (h : Decodes bytes out) : textOf bytes = out := by
  rw [CommandInputs.textOf]
  cases h with
  | text whole => rw [Text.Utf8.toText?_eq_some_iff.mpr whole]
  | notText other => rw [Text.Utf8.toText?_eq_none_iff.mpr other]

theorem exists_opens (inputs : CommandInputs) (path : String) : ∃ out, inputs.Opens path out := by
  cases there : inputs.read path with
  | error reason => exact ⟨_, .unread there⟩
  | ok bytes =>
    obtain ⟨out, decodes⟩ := exists_decodes bytes
    exact ⟨out, .read there decodes⟩

theorem Opens.text {out : Except ReadFault String} (h : inputs.Opens path out) : inputs.text path = out := by
  rw [CommandInputs.text]
  cases h with
  | read there decodes => rw [there, Except.bind, decodes.textOf]
  | unread fails => rw [fails, Except.bind]

/-! ### Grammars -/

theorem exists_written (path document : String) : ∃ out, Written path document out := by
  by_cases ending : (PathName.ofString path).extension? ∈ [some "yaml", some "yml"]
  · cases rules : RuleSet.ofYaml? document with
    | some set => exact ⟨_, .yaml ending rules⟩
    | none => exact ⟨_, .notYaml ending rules⟩
  · exact ⟨_, .json ending rfl⟩

theorem Written.ruleSet {out : Except LoadError RuleSet} (h : Written path document out) :
    ruleSet path document = out := by
  rw [CommandInputs.ruleSet]
  cases h with
  | yaml ending rules | notYaml ending rules =>
    obtain named | named := by simpa using ending
    all_goals simp only [named, rules]
  | json ending rules =>
    obtain ⟨yaml, yml⟩ := by simpa using ending
    split
    · contradiction
    · contradiction
    · exact rules

theorem ofId?_eq_none (unknown : ∀ g : BundledGrammar, g.id ≠ id) : BundledGrammar.ofId? id = none := by
  rw [BundledGrammar.ofId?, List.find?_eq_none]
  exact fun g _ same => unknown g (eq_of_beq same)

section

variable [RegexEngine]

theorem exists_grammar (inputs : CommandInputs) (id : String) : ∃ out, inputs.Grammar id out := by
  by_cases known : ∃ g : BundledGrammar, g.id = id
  · obtain ⟨g, known⟩ := known
    cases rules : g.ruleSet with
    | error reason => exact ⟨_, .bundledNotRules known rules⟩
    | ok set =>
      cases loads : set.load.2 with
      | error reason => exact ⟨_, .bundledRefused known rules loads⟩
      | ok x => exact ⟨_, .bundled known rules loads⟩
  · have unknown := not_exists.mp known
    obtain ⟨reason | document, opens⟩ := exists_opens inputs id
    · exact ⟨_, .unread unknown opens⟩
    · obtain ⟨reason | set, rules⟩ := exists_written id document
      · exact ⟨_, .notRules unknown opens rules⟩
      · cases loads : set.load.2 with
        | error reason => exact ⟨_, .refused unknown opens rules loads⟩
        | ok x => exact ⟨_, .file unknown opens rules loads⟩

theorem lexicon_bundled {g : BundledGrammar} (inputs : CommandInputs) (known : g.id = id)
    {read : Except LoadError RuleSet} (rules : g.ruleSet = read) :
    inputs.lexicon id = (RuleSet.loadRead read).2.mapError (.bundled id) := by
  have loads : g.load = RuleSet.loadRead read := by rw [BundledGrammar.load, rules]
  rw [CommandInputs.lexicon]
  -- Nothing is to be computed from the rule file.
  generalize BundledGrammar.load = load at loads
  rw [← known, BundledGrammar.ofId?_id]
  simp only [loads]

theorem Grammar.lexicon {out : Except CommandFault (RuleSet × Lexicon)} (h : inputs.Grammar id out) :
    inputs.lexicon id = out.map Prod.snd := by
  cases h with
  | bundledNotRules known fails =>
    rw [lexicon_bundled inputs known fails, RuleSet.loadRead]
    rfl
  | bundled known rules loads | bundledRefused known rules loads =>
    rw [lexicon_bundled inputs known rules, RuleSet.loadRead, loads]
    rfl
  | unread unknown fails =>
    rw [CommandInputs.lexicon, ofId?_eq_none unknown, fails.text]
    rfl
  | notRules unknown opens fails =>
    rw [CommandInputs.lexicon, ofId?_eq_none unknown, opens.text]
    simp only [fails.ruleSet, RuleSet.loadRead, Except.mapError, Except.map]
  | refused unknown opens rules loads | file unknown opens rules loads =>
    rw [CommandInputs.lexicon, ofId?_eq_none unknown, opens.text]
    simp only [rules.ruleSet, RuleSet.loadRead, loads, Except.mapError, Except.map]

end

/-! ### Settings -/

theorem Found.layer (h : inputs.Found path name bytes) :
    inputs.settingsLayer path = .file name (some (Text.Utf8.toTextLossy bytes)) true := by
  rw [settingsLayer, settingsPaths]
  cases h with
  | there read => simp only [List.findSome?_cons, read]
  | beside absent named read =>
    simp only [named, Option.map_some, Option.toList_some, List.findSome?_cons, absent, read]

theorem layer_of_not_found (nowhere : ∀ name bytes, ¬ inputs.Found path name bytes) :
    inputs.settingsLayer path = .file path none true := by
  rw [settingsLayer, settingsPaths]
  cases there : inputs.read path with
  | ok bytes => exact absurd (.there there) (nowhere _ bytes)
  | error reason =>
    cases named : (PathName.ofString path).withSuffix? ".toml" with
    | none => simp [there]
    | some other =>
      cases beside : inputs.read other.text with
      | ok bytes => exact absurd (.beside there named beside) (nowhere _ bytes)
      | error reason => simp [there, beside]

theorem ofLayers_none : Settings.ofLayers [] = .ok {} := by
  decide +kernel

theorem ofLayers_file (name text : String) :
    Settings.ofLayers [.file name (some text) true] =
      match Toml.document? (Settings.dropMark text) with
      | none => .error (.badFile name)
      | some entries => Settings.ofValues (overDefaults name entries) := by
  rw [Settings.ofLayers, Settings.valuesOfLayers, Settings.layFiles, Settings.layFile]
  cases Toml.document? (Settings.dropMark text) <;> rfl

theorem exists_chosen (inputs : CommandInputs) (path : Option String) : ∃ out, inputs.Chosen path out := by
  cases path with
  | none => exact ⟨_, .defaults⟩
  | some path =>
    by_cases somewhere : ∃ name bytes, inputs.Found path name bytes
    · obtain ⟨name, bytes, found⟩ := somewhere
      cases toml : Toml.document? (Settings.dropMark (Text.Utf8.toTextLossy bytes)) with
      | none => exact ⟨_, .notToml found toml⟩
      | some entries =>
        cases reads : Settings.ofValues (overDefaults name entries) with
        | error reason => exact ⟨_, .wrong found toml reads⟩
        | ok settings => exact ⟨_, .file found toml reads⟩
    · exact ⟨_, .missing fun name bytes found => somewhere ⟨name, bytes, found⟩⟩

theorem Chosen.settings {path : Option String} {out : Except CommandFault Settings}
    (h : inputs.Chosen path out) : inputs.settings path = out := by
  rw [CommandInputs.settings]
  cases h with
  | defaults =>
    rw [Option.map_none, Option.toList_none, ofLayers_none]
    rfl
  | missing nowhere =>
    rw [Option.map_some, layer_of_not_found nowhere]
    rfl
  | notToml found toml =>
    rw [Option.map_some, found.layer, Option.toList_some, ofLayers_file, toml]
    rfl
  | wrong found toml reads | file found toml reads =>
    rw [Option.map_some, found.layer, Option.toList_some, ofLayers_file]
    simp only [toml, reads, Except.mapError]

/-! ### Sources -/

theorem exists_source (inputs : CommandInputs) (path : Option String) : ∃ out, inputs.Source path out := by
  cases path with
  | none =>
    obtain ⟨reason | text, decodes⟩ := exists_decodes inputs.standard
    · exact ⟨_, .notText decodes⟩
    · exact ⟨_, .standard decodes⟩
  | some path =>
    obtain ⟨reason | text, opens⟩ := exists_opens inputs path
    · exact ⟨_, .unread opens⟩
    · exact ⟨_, .file opens⟩

theorem Source.source {path : Option String} {out : Except CommandFault String}
    (h : inputs.Source path out) : inputs.source path = out := by
  cases h with
  | file opens | unread opens => rw [CommandInputs.source, opens.text, Except.mapError]
  | standard decodes | notText decodes => rw [CommandInputs.source, decodes.textOf, Except.mapError]

end CommandInputs

end StackLexer
