import StackLexer.Settings.Reading
import StackLexer.Toml.Document

/-! Settings in layers.
Files come one over the other, and single values that are set come over all files, wherever they
stand among them. Under everything are the defaults. -/

namespace StackLexer

inductive SettingsLayer where
  | file (name : String) (text : Option String) (isRequired : Bool)
  | override (key : String) (value : SettingValue)
  deriving Repr, Inhabited

namespace Settings

def toValues (s : Settings) : SettingValue.Entries :=
  [(tableName, .table [
    ("fallback_token", .scalar none (.text s.fallbackToken)),
    ("max_stack_depth", .scalar none (.integer s.maxStackDepth)),
    ("max_zero_width_steps", .scalar none (.integer s.maxZeroWidthSteps)),
    ("merge_unmatched", .scalar none (.bool s.mergeUnmatched))])]

/-- Sets an entry of a file. Its key is read as a path if it can be. -/
def setEntry (root : SettingValue.Entries) (key : String) (value : SettingValue) :
    SettingValue.Entries :=
  SettingValue.putAt root
    (match SettingPath.ofString key with
      | .ok path => path
      | .error _ => ⟨key, []⟩) value

def dropMark (text : String) : String :=
  match text.toList with
  | '\uFEFF' :: rest => String.ofList rest
  | _ => text

/-- Lays a file over the values so far. A byte order mark in front of it is not part of the
document, which may have one itself. -/
def layFile (root : SettingValue.Entries) (name : String) (text : Option String)
    (isRequired : Bool) : Except SettingsFault SettingValue.Entries :=
  match text with
  | none => if isRequired then .error (.fileMissing name) else .ok root
  | some text =>
    match Toml.document? (dropMark text) with
    | none => .error (.badFile name)
    | some entries =>
      .ok (entries.foldl (fun root (key, v) => setEntry root key (.ofToml name v)) root)

def layFiles (root : SettingValue.Entries) :
    List SettingsLayer → Except SettingsFault SettingValue.Entries
  | [] => .ok root
  | .file name text isRequired :: rest =>
    match layFile root name text isRequired with
    | .ok root => layFiles root rest
    | .error fault => .error fault
  | .override .. :: rest => layFiles root rest

def addOverride (overrides : List (SettingPath × SettingValue)) (path : SettingPath)
    (value : SettingValue) : List (SettingPath × SettingValue) :=
  if (overrides.lookup path).isSome then
    overrides.map (fun e => if e.1 = path then (path, value) else e)
  else overrides ++ [(path, value)]

def overrides (found : List (SettingPath × SettingValue)) :
    List SettingsLayer → Except SettingsFault (List (SettingPath × SettingValue))
  | [] => .ok found
  | .file .. :: rest => overrides found rest
  | .override key value :: rest =>
    match SettingPath.ofString key with
    | .ok path => overrides (addOverride found path value) rest
    | .error fault => .error (.badKey fault)

/-- The values of all layers. Keys of overrides are looked at before any file is. -/
def valuesOfLayers (layers : List SettingsLayer) : Except SettingsFault SettingValue.Entries := do
  let winning ← overrides [] layers
  let root ← layFiles ({} : Settings).toValues layers
  return winning.foldl (fun root (path, value) => SettingValue.putAt root path value) root

def ofLayers (layers : List SettingsLayer) : Except SettingsFault Settings := do
  ofValues (← valuesOfLayers layers)

end Settings

end StackLexer
