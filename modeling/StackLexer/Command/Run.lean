import StackLexer.Command.Folder
import StackLexer.Command.Help
import StackLexer.Grammar.FromYaml
import StackLexer.Json.Pretty
import StackLexer.Lexing.Session
import StackLexer.Regex.Engine
import StackLexer.Settings.Layers
import StackLexer.Text.Utf8

/-! Running a command line.
All that can fail comes before anything is written, so a command either writes its whole answer or
nothing but the reason why there is none. -/

namespace StackLexer

structure CommandInputs where
  read : String → Except ReadFault (List UInt8)
  standard : List UInt8

structure Outcome where
  code : Nat
  out : String := ""
  err : String := ""
  deriving DecidableEq, Repr, Inhabited

inductive CommandFault where
  | bundled (id : String) (reason : LoadError)
  | grammarUnread (path : String) (reason : ReadFault)
  | grammarInvalid (path : String) (reason : LoadError)
  | settings (reason : SettingsFault)
  | sourceUnread (path : String) (reason : ReadFault)
  | inputUnread (reason : ReadFault)
  | unknownStart (name : String)
  deriving DecidableEq, Repr, Inhabited

def CommandFault.message : CommandFault → String
  | bundled id reason => "bundled grammar '" ++ id ++ "': " ++ reason.message
  | grammarUnread path reason => "reading grammar '" ++ path ++ "': " ++ reason.message
  | grammarInvalid path reason => path ++ ": " ++ reason.message
  | settings reason => "loading settings: " ++ reason.message
  | sourceUnread path reason => "reading '" ++ path ++ "': " ++ reason.message
  | inputUnread reason => "reading stdin: " ++ reason.message
  | unknownStart name => "grammar has no state named '" ++ name ++ "'"

namespace CommandInputs

def textOf (bytes : List UInt8) : Except ReadFault String :=
  match Text.Utf8.toText? bytes with
  | some text => .ok text
  | none => .error .notText

def text (inputs : CommandInputs) (path : String) : Except ReadFault String :=
  (inputs.read path).bind textOf

def ruleSet (path text : String) : Except LoadError RuleSet :=
  match (PathName.ofString path).extension? with
  | some "yaml" | some "yml" =>
    match RuleSet.ofYaml? text with
    | some set => .ok set
    | none => .error (.parse "not a rule set")
  | _ => RuleSet.readJson text

/-- The grammar with an id or in the file at a path. An id comes before a file of that name. -/
def lexicon [RegexEngine] (inputs : CommandInputs) (grammar : String) :
    Except CommandFault Lexicon :=
  match BundledGrammar.ofId? grammar with
  | some g => g.load.2.mapError (.bundled grammar)
  | none =>
    match inputs.text grammar with
    | .error reason => .error (.grammarUnread grammar reason)
    | .ok text => (RuleSet.loadRead (ruleSet grammar text)).2.mapError (.grammarInvalid grammar)

/-- The paths at which a settings file is looked for, with the names it has then. -/
def settingsPaths (path : String) : List (String × String) :=
  let p := PathName.ofString path
  (path, p.text) :: ((p.withSuffix? ".toml").map (fun p => (p.text, p.text))).toList

def settingsLayer (inputs : CommandInputs) (path : String) : SettingsLayer :=
  let found := (settingsPaths path).findSome? (fun (path, name) =>
    match inputs.read path with
    | .ok bytes => some (name, bytes)
    | .error _ => none)
  match found with
  | some (name, bytes) => .file name (some (Text.Utf8.toTextLossy bytes)) true
  | none => .file path none true

def settings (inputs : CommandInputs) (path : Option String) : Except CommandFault Settings :=
  (Settings.ofLayers (path.map inputs.settingsLayer).toList).mapError .settings

def source (inputs : CommandInputs) : Option String → Except CommandFault String
  | some path => (inputs.text path).mapError (.sourceUnread path)
  | none => (textOf inputs.standard).mapError .inputUnread

def sessionFrom (t : Tokenizer) : Option String → Except CommandFault Session
  | none => .ok (.new t)
  | some name =>
    match Session.startingAt? t name with
    | some s => .ok s
    | none => .error (.unknownStart name)

end CommandInputs

def lineJson (numbered : List Token × Nat) : Json :=
  .object [("line", .nat numbered.2), ("tokens", .array (numbered.1.map Token.toJson))]

def lineText (numbered : List Token × Nat) : String :=
  toString numbered.2 ++ ":\n" ++ String.join (numbered.1.map (fun t =>
    "  " ++ Text.padRight t.kind 60 ++ " " ++ Text.quoted t.value ++ "\n"))

def OutputFormat.write (format : OutputFormat) (lines : List (List Token)) : String :=
  match format with
  | text => String.join ((lines.zipIdx 1).map lineText)
  | json => (Json.array ((lines.zipIdx 1).map lineJson)).pretty ++ "\n"

def stallNote (stalls : Nat) : String :=
  if stalls = 0 then ""
  else "note: " ++ toString stalls ++ " character(s) matched no rule and no default token\n"

namespace CommandInputs

variable [RegexEngine]

def tokenize (inputs : CommandInputs) (r : TokenizeRequest) : Except CommandFault Outcome := do
  let lexicon ← inputs.lexicon r.grammar
  let settings ← inputs.settings r.settings
  let source ← inputs.source r.source
  let session ← sessionFrom ⟨lexicon, settings⟩ r.start
  let (lines, after, _) := session.document source
  return { code := 0, out := r.format.write lines, err := stallNote after.totals.counts.stalls }

def check (inputs : CommandInputs) (grammar : String) : Except CommandFault Outcome := do
  let lexicon ← inputs.lexicon grammar
  return {
    code := 0
    out := grammar ++ ": ok (" ++ toString lexicon.names.length ++ " named states, " ++
      toString lexicon.stateCount ++ " states in total, " ++ toString lexicon.patternCount ++
      " patterns)\n" }

def stateText (lexicon : Lexicon) (name : String) : String :=
  let rules := match lexicon.stateId? name with
    | some id => (lexicon.state id).rules.size
    | none => 0
  Text.padRight name 32 ++ " " ++ toString rules ++ " rules\n"

def states (inputs : CommandInputs) (grammar : String) : Except CommandFault Outcome := do
  let lexicon ← inputs.lexicon grammar
  return { code := 0, out := String.join (lexicon.names.map (stateText lexicon)) }

def answer (inputs : CommandInputs) : Request → Except CommandFault Outcome
  | .tokenize r => inputs.tokenize r
  | .check grammar => inputs.check grammar
  | .states grammar => inputs.states grammar
  | .help topic => .ok { code := 0, out := topic.text }
  | .version => .ok { code := 0, out := programName ++ " " ++ programVersion ++ "\n" }

def perform (inputs : CommandInputs) (request : Request) : Outcome :=
  match inputs.answer request with
  | .ok outcome => outcome
  | .error fault => { code := 1, err := "Error: " ++ fault.message ++ "\n" }

def run (inputs : CommandInputs) (args : List String) : Outcome :=
  match Request.ofArguments args with
  | .error fault => { code := 2, err := fault.message }
  | .ok request => inputs.perform request

end CommandInputs

end StackLexer
