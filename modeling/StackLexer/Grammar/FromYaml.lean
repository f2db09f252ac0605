import StackLexer.Grammar.FromJson
import StackLexer.Yaml.Nodes

/-! Rule sets from YAML.
A field that is a text takes a scalar as it is written, whatever else it might stand for. Under
`token` and `push` scalars stand for what they mean, so that a number there is no text; and there,
as in a list of values by position, a number can be the key of a field. -/

namespace StackLexer

open Json (Draft)

namespace FromYaml

def keyName? (key : Yaml.Value) : Option String :=
  match key with
  | .scalar s =>
    match s.meaning? with
    | some (.string name) => some name
    | some (.integer n) => if n ≥ 0 then Field.all[n.toNat]?.map Field.name else none
    | _ => none
  | _ => none

mutual

def draft? : Yaml.Value → Option Draft
  | .scalar s =>
    match s.meaning? with
    | some .null => some .null
    | some (.bool b) => some (.bool b)
    | some (.integer n) => some (.number (.integer n))
    | some (.string text) => some (.string text)
    | some .float | none => none
  | .sequence tag items =>
    if Yaml.Tag.isLocal tag then none else (drafts? items).map (Draft.array · none)
  | .mapping tag entries =>
    if Yaml.Tag.isLocal tag then none else (members? entries).map (Draft.object · none)

def drafts? : List Yaml.Value → Option (List Draft)
  | [] => some []
  | value :: rest =>
    match draft? value, drafts? rest with
    | some d, some ds => some (d :: ds)
    | _, _ => none

def members? : List (Yaml.Value × Yaml.Value) → Option (List (String × Draft))
  | [] => some []
  | (key, value) :: rest =>
    match keyName? key, draft? value, members? rest with
    | some name, some d, some ds => some ((name, d) :: ds)
    | _, _, _ => none

end

def present? (field : Field) (value : Yaml.Value) : Option Draft :=
  match field, value with
  | .token, _ | .push, _ => draft? value
  | .caseInsensitive, .scalar s => s.bool?.map Draft.bool
  | _, .scalar s => some (.string s.text)
  | _, _ => none

def field? (field : Field) (value : Yaml.Value) : Option Draft :=
  match value with
  | .scalar s =>
    match s.isAbsent? with
    | some true => some .null
    | some false => present? field value
    | none => none
  | _ => present? field value

def mapping? : Yaml.Value → Option (List (Yaml.Value × Yaml.Value))
  | .mapping _ entries => some entries
  | .scalar s => if s.text.isEmpty && s.style = .plain then some [] else none
  | .sequence .. => none

def sequence? : Yaml.Value → Option (List Yaml.Value)
  | .sequence _ items => some items
  | .scalar s => if s.text.isEmpty && s.style = .plain then some [] else none
  | .mapping .. => none

def text? : Yaml.Value → Option String
  | .scalar s => some s.text
  | _ => none

def rule? (value : Yaml.Value) : Option Rule := do
  let entries ← mapping? value
  let members ← entries.mapM (fun (key, value) => do
    let name ← text? key
    return (name, ← field? (← Field.ofName? name) value))
  (Decode.members {} [] members).toOption

def rules? (value : Yaml.Value) : Option (List Rule) := do
  (← sequence? value).mapM rule?

def ruleSet? (value : Yaml.Value) : Option RuleSet := do
  let states ← (← mapping? value).mapM (fun (key, value) => do
    return (← text? key, ← rules? value))
  return { states := .ofEntries states }

end FromYaml

/-- The rule set that a YAML text describes. A text without document describes one without
states. -/
def RuleSet.ofYaml? (text : String) : Option RuleSet :=
  match Yaml.Value.ofText? text with
  | none => none
  | some none => some .empty
  | some (some value) => FromYaml.ruleSet? value

end StackLexer
