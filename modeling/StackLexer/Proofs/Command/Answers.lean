import Mathlib
import StackLexer.Proofs.Command.Supply
import StackLexer.Proofs.Grammar.JsonTexts
import StackLexer.Proofs.Grammar.Sources
import StackLexer.Proofs.Json.Printing
import StackLexer.Proofs.Lexing.Transcript

/-! What a command line that asks for tokens is answered.
Everything that can fail is there before anything is written: the grammar, the settings, the text and the
state to begin in. So either a fault is told and nothing else, or the whole text is scanned and all of its
tokens are given out, with a note when characters have stalled. Tokens that are given out as JSON are read
back as JSON, line by line. -/

namespace StackLexer

/-! ### Tokens as JSON -/

namespace Json

/-- An entry for the tokens of a line: its number, and tokens whose texts make up the line. -/
structure Tells (entry : Json) (number : Nat) (line : String) (tokens : List Token) : Prop where
  numbered : entry.member? "line" = some (.nat number)
  given : ∃ items, entry.member? "tokens" = some (.array items) ∧
    items.map (·.member? "kind") = tokens.map (fun token => some (.string token.kind)) ∧
    items.map (·.member? "value") = tokens.map (fun token => some (.string token.value))
  whole : String.join (tokens.map Token.value) = line

theorem member?_tokens (tokens : List Token) (key : String) :
    (tokens.map (fun token => token.toJson.inOrder)).map (·.member? key) =
      tokens.map (fun token => (token.toJson.member? key).map inOrder) := by
  rw [List.map_map]
  exact List.map_congr_left fun token _ => member?_inOrder token.toJson key

theorem inOrder_lineJson {tokens : List Token} {line : String} (whole : Token.detokenize tokens = line)
    (number : Nat) : (lineJson (tokens, number)).inOrder.Tells number line tokens := by
  have items : (Json.array (tokens.map Token.toJson)).inOrder =
      .array (tokens.map (fun token => token.toJson.inOrder)) := by
    rw [inOrder_array, List.map_map]
    rfl
  refine ⟨member?_inOrder _ "line", ⟨_, ?_, member?_tokens tokens "kind", member?_tokens tokens "value"⟩,
    whole⟩
  rw [member?_inOrder, ← items]
  rfl

theorem natural_lineJson {tokens : List Token} {number : Nat} (small : number < 2 ^ 64)
    (spans : ∀ token ∈ tokens, token.span.start < 2 ^ 64 ∧ token.span.stop < 2 ^ 64) :
    (lineJson (tokens, number)).Natural := by
  have each : ∀ item ∈ tokens.map Token.toJson, item.Natural := by
    refine List.forall_mem_map.mpr fun token inside => ?_
    obtain ⟨start, stop⟩ := spans token inside
    exact ⟨trivial, trivial, ⟨⟨_, start, rfl⟩, ⟨_, stop, rfl⟩, trivial⟩, trivial⟩
  exact ⟨⟨number, small, rfl⟩, naturalItems_iff.mpr each, trivial⟩

theorem depth_lineJson (numbered : List Token × Nat) : (lineJson numbered).depth ≤ 4 := by
  have each : depthOfItems (numbered.1.map Token.toJson) ≤ 2 :=
    depthOfItems_le_iff.mpr (List.forall_mem_map.mpr fun _ _ => Nat.le_refl 2)
  simp only [lineJson, depth, depthOfMembers, Json.nat]
  omega

end Json

theorem natural_lines (t : Tokenizer) (stack : Stack) {source : String}
    (small : source.utf8ByteSize < 2 ^ 64) :
    ∀ numbered ∈ ((t.lines stack (Text.lines source)).map (·.tokens)).zipIdx 1,
      (lineJson numbered).Natural := by
  -- The number of an entry is one more than the index of its line.
  rintro ⟨tokens, number⟩ inside
  obtain ⟨first, there⟩ := List.mk_mem_zipIdx_iff_le_and_getElem?_sub.mp inside
  rw [List.getElem?_map, Tokenizer.getElem?_lines, Option.map_map] at there
  obtain ⟨line, within, rfl⟩ := Option.map_eq_some_iff.mp there
  have last : number - 1 < (Text.lines source).length := (List.getElem?_eq_some_iff.mp within).1
  have lines : (Text.lines source).length ≤ source.utf8ByteSize := Text.length_lines_le source
  have bytes : line.utf8ByteSize ≤ source.utf8ByteSize :=
    Text.utf8ByteSize_le_of_mem_lines (List.mem_of_getElem? within)
  refine Json.natural_lineJson (by omega) fun token member => ?_
  obtain ⟨start, stop⟩ := Tokenizer.span_le member
  omega

/-- The tokens of a text are read back from the JSON that is written for them, one entry for each line. -/
theorem parse_write_json (t : Tokenizer) (stack : Stack) {source : String}
    (small : source.utf8ByteSize < 2 ^ 64) :
    let texts := Text.lines source
    let outs := t.lines stack texts
    ∃ entries : List Json,
      Json.parse (OutputFormat.json.write (outs.map (·.tokens))) = .ok (.array entries) ∧
        entries.length = texts.length ∧
        ∀ (i : Nat) (line : String), texts[i]? = some line → ∃ (entry : Json) (out : LineTokens),
          entries[i]? = some entry ∧ outs[i]? = some out ∧ entry.Tells (i + 1) line out.tokens := by
  intro texts outs
  let numbered := (outs.map (·.tokens)).zipIdx 1
  have natural : (Json.array (numbered.map lineJson)).Natural :=
    Json.naturalItems_iff.mpr (List.forall_mem_map.mpr (natural_lines t stack small))
  have shallow : (Json.array (numbered.map lineJson)).depth ≤ Json.depthLimit := by
    have items : Json.depthOfItems (numbered.map lineJson) ≤ 4 :=
      Json.depthOfItems_le_iff.mpr (List.forall_mem_map.mpr fun entry _ => Json.depth_lineJson entry)
    rw [Json.depth, Json.depthLimit]
    omega
  have parsed := Json.parse_pretty natural shallow
  rw [Json.inOrder_array] at parsed
  refine ⟨_, parsed, ?_, fun i line there => ?_⟩
  · have count : outs.length = texts.length := t.length_lines stack texts
    simp [numbered, count]
  · have out : outs[i]? = some (t.line (t.stackAfter stack (texts.take i)) line) := by
      rw [Tokenizer.getElem?_lines, there, Option.map_some]
    refine ⟨_, _, ?_, out, Json.inOrder_lineJson (t.detokenize_line _ line) (i + 1)⟩
    simp [numbered, out, Nat.add_comm]

/-! ### Answers -/

namespace CommandInputs

section

variable [RegexEngine]

inductive Fails (inputs : CommandInputs) (r : TokenizeRequest) : CommandFault → Prop
  | grammar {fault : CommandFault} (fails : inputs.Grammar r.grammar (.error fault)) : Fails inputs r fault
  | settings {fault : CommandFault} (fails : inputs.Chosen r.settings (.error fault)) : Fails inputs r fault
  | source {fault : CommandFault} (fails : inputs.Source r.source (.error fault)) : Fails inputs r fault
  | start {set : RuleSet} {x : Lexicon} {name : String}
      (grammar : inputs.Grammar r.grammar (.ok (set, x))) (named : r.start = some name)
      (unknown : name ∉ set.names) : Fails inputs r (.unknownStart name)

/-- All that a request asks for is there: a rule set and a tokenizer for it, the state to begin in, and a
text. -/
structure Ready (inputs : CommandInputs) (r : TokenizeRequest) (set : RuleSet) (t : Tokenizer)
    (root : StateId) (source : String) : Prop where
  grammar : inputs.Grammar r.grammar (.ok (set, t.lexicon))
  settings : inputs.Chosen r.settings (.ok t.settings)
  source : inputs.Source r.source (.ok source)
  start : set.names[root.index]? = some (r.start.getD "start")

variable {inputs : CommandInputs} {r : TokenizeRequest} {set : RuleSet} {t : Tokenizer} {root : StateId}
  {source : String}

theorem Grammar.loads {id : String} {x : Lexicon} (h : inputs.Grammar id (.ok (set, x))) :
    set.load.2 = .ok x := by
  cases h with
  | bundled _ _ loads | file _ _ _ loads => exact loads

theorem Ready.not_fails (ready : inputs.Ready r set t root source) (fault : CommandFault) :
    ¬ inputs.Fails r fault := by
  intro fails
  cases fails with
  | grammar fails =>
    have same := ready.grammar.lexicon.symm.trans fails.lexicon
    simp [Except.map] at same
  | settings fails =>
    have same := ready.settings.settings.symm.trans fails.settings
    simp at same
  | source fails =>
    have same := ready.source.source.symm.trans fails.source
    simp at same
  | @start other x name grammar named unknown =>
    -- Both rule sets are loaded to one lexicon, which has the states of either.
    obtain rfl : t.lexicon = x := Except.ok.inj (ready.grammar.lexicon.symm.trans grammar.lexicon)
    have begins := ready.start
    rw [named, Option.getD_some] at begins
    have there := RuleSet.stateId?_of_name ready.grammar.loads begins
    exact unknown ((RuleSet.mem_names_of_stateId? grammar.loads).mp ⟨root, there⟩)

theorem sessionFrom_eq (loaded : set.load.2 = .ok t.lexicon) (start : Option String) :
    sessionFrom t start =
      match t.lexicon.stateId? (start.getD "start") with
      | some root => .ok (.withStack t (.ofRoot root))
      | none => .error (.unknownStart (start.getD "start")) := by
  cases start with
  | none =>
    rw [Option.getD_none, ← RuleSet.startName, RuleSet.stateId?_startName loaded]
    rfl
  | some name =>
    rw [Option.getD_some, sessionFrom, Session.startingAt?, Tokenizer.initialAt?]
    cases t.lexicon.stateId? name <;> rfl

theorem Ready.session (ready : inputs.Ready r set t root source) :
    sessionFrom t r.start = .ok (.withStack t (.ofRoot root)) := by
  have there := RuleSet.stateId?_of_name ready.grammar.loads ready.start
  rw [sessionFrom_eq ready.grammar.loads, there]

theorem sessionFrom_of_unknown (loaded : set.load.2 = .ok t.lexicon) {start : Option String}
    (unknown : start.getD "start" ∉ set.names) :
    ∃ name, start = some name ∧ name ∉ set.names ∧ sessionFrom t start = .error (.unknownStart name) := by
  have absent : t.lexicon.stateId? (start.getD "start") = none :=
    Option.eq_none_iff_forall_ne_some.mpr fun id there =>
      unknown ((RuleSet.mem_names_of_stateId? loaded).mp ⟨id, there⟩)
  have fails := sessionFrom_eq loaded start
  rw [absent] at fails
  cases start with
  | none =>
    rw [Option.getD_none, ← RuleSet.startName, RuleSet.stateId?_startName loaded] at absent
    simp at absent
  | some name => exact ⟨name, rfl, unknown, fails⟩

theorem Ready.tokenize (ready : inputs.Ready r set t root source) :
    inputs.tokenize r =
      .ok { code := 0
            out := r.format.write ((t.lines (.ofRoot root) (Text.lines source)).map (·.tokens))
            err := stallNote (t.stalledIn (.ofRoot root) (Text.lines source)) } := by
  obtain ⟨tokens, stalls⟩ := Session.document_withStack t (.ofRoot root) source
  simp only [CommandInputs.tokenize, ready.grammar.lexicon, ready.settings.settings, ready.source.source,
    Except.map, ready.session, tokens, stalls, bind, Except.bind, pure, Except.pure]

theorem tokenize_cases (inputs : CommandInputs) (r : TokenizeRequest) :
    (∃ fault, inputs.Fails r fault ∧ inputs.tokenize r = .error fault) ∨
      ∃ set t root source, inputs.Ready r set t root source := by
  -- The cases come in the order of the stages, each of which is only reached when those before it succeed.
  obtain ⟨fault | ⟨set, x⟩, grammar⟩ := exists_grammar inputs r.grammar
  · refine .inl ⟨fault, .grammar grammar, ?_⟩
    rw [CommandInputs.tokenize, grammar.lexicon]
    rfl
  obtain ⟨fault | chosen, settings⟩ := exists_chosen inputs r.settings
  · refine .inl ⟨fault, .settings settings, ?_⟩
    rw [CommandInputs.tokenize, grammar.lexicon, settings.settings]
    rfl
  obtain ⟨fault | text, source⟩ := exists_source inputs r.source
  · refine .inl ⟨fault, .source source, ?_⟩
    rw [CommandInputs.tokenize, grammar.lexicon, settings.settings, source.source]
    rfl
  by_cases known : r.start.getD "start" ∈ set.names
  · obtain ⟨n, start⟩ := List.getElem?_of_mem known
    exact .inr ⟨set, ⟨x, chosen⟩, ⟨n⟩, text, grammar, settings, source, start⟩
  · obtain ⟨name, named, unknown, fails⟩ := sessionFrom_of_unknown (t := ⟨x, chosen⟩) grammar.loads known
    refine .inl ⟨_, .start grammar named unknown, ?_⟩
    rw [CommandInputs.tokenize, grammar.lexicon, settings.settings, source.source]
    simp only [bind, Except.bind, Except.map, fails]

end

def spotRules : Json :=
  .object [("start", .array [.object [("regex", .string "a"), ("token", .string "spot")]])]

def spotSet : RuleSet := RuleSet.empty.withState "start" [Rule.single "spot" "a"]

def spotSettings : String := "tokenizer.fallback_token = \"gap\""

def spotSettled : Settings := { fallbackToken := "gap" }

def spots : CommandInputs where
  read path :=
    if path = "spots.json" then .ok (Text.bytes spotRules.compact)
    else if path = "spots.toml" then .ok (Text.bytes spotSettings)
    else .error .notFound
  standard := Text.bytes "ab\na"

theorem spots_grammar [RegexEngine] {x : Lexicon} (loads : spotSet.load.2 = .ok x) :
    spots.Grammar "spots.json" (.ok (spotSet, x)) := by
  have unknown (g : BundledGrammar) : g.id ≠ "spots.json" := by
    cases g
    decide
  have ending : (PathName.ofString "spots.json").extension? ∉ [some "yaml", some "yml"] := by
    decide +kernel
  have rules : RuleSet.readJson spotRules.compact = .ok spotSet :=
    (RuleSet.readJson_compact_iff (by decide)).mpr (by cbv)
  exact .file unknown (.read rfl (.text rfl)) (.json ending rules) loads

theorem spots_settings : spots.Chosen (some "spots") (.ok spotSettled) := by
  have absent : spots.read "spots" = .error .notFound := by decide +kernel
  have beside : (PathName.ofString "spots").withSuffix? ".toml" =
      some ⟨false, [.down "spots.toml"], false⟩ := by
    decide +kernel
  have toml : Toml.document? (Settings.dropMark (Text.Utf8.toTextLossy (Text.bytes spotSettings))) =
      some [("tokenizer", .table [("fallback_token", .string "gap")])] := by
    rw [Text.Utf8.toTextLossy_bytes]
    cbv
  exact .file (.beside absent beside rfl) toml (by decide +kernel)

theorem spots_no_settings : spots.Chosen (some "plain") (.error (.settings (.fileMissing "plain"))) := by
  have absent : spots.read "plain.toml" = .error .notFound := by decide +kernel
  have beside : (PathName.ofString "plain").withSuffix? ".toml" =
      some ⟨false, [.down "plain.toml"], false⟩ := by
    decide +kernel
  refine .missing fun name bytes found => ?_
  cases found with
  | there read => cases read
  | beside _ named read =>
    obtain rfl := Option.some.inj (beside.symm.trans named)
    cases absent.symm.trans read

theorem exists_spot_tokenizer : ∃ t root, spots.Ready
    { grammar := "spots.json", format := .json, settings := some "spots" } spotSet t root "ab\na" ∧
    t.stalledIn (.ofRoot root) ["ab", "a"] = 1 ∧
    (t.lines (.ofRoot root) ["ab", "a"]).map (·.tokens.map Token.kind) = [["spot", "gap"], ["spot"]] := by
  have scanned : spotSet.load.2.toOption.map (fun x =>
      (Tokenizer.stalledIn ⟨x, spotSettled⟩ (.ofRoot ⟨0⟩) ["ab", "a"],
        (Tokenizer.lines ⟨x, spotSettled⟩ (.ofRoot ⟨0⟩) ["ab", "a"]).map (·.tokens.map Token.kind))) =
      some (1, [["spot", "gap"], ["spot"]]) := by
    cbv
  obtain ⟨x, found, both⟩ := Option.map_eq_some_iff.mp scanned
  obtain ⟨one, kinds⟩ := Prod.mk.inj both
  have loads := RuleSet.load_of_toOption found
  exact ⟨⟨x, spotSettled⟩, ⟨0⟩,
    ⟨spots_grammar loads, spots_settings, .standard (.text rfl), by decide⟩, one, kinds⟩

end CommandInputs

end StackLexer
