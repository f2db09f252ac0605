import StackLexer.Settings.Path

/-! Why settings cannot be made from layers. -/

namespace StackLexer

inductive SettingKind where
  | text
  | count
  | flag
  deriving DecidableEq, Repr, Inhabited

inductive SettingsFault where
  | wrongType (found expected : String) (key : String) (origin : Option String)
  | wrongShape (found : SettingScalar)
  | tooShort (length : Nat)
  | missingField (name : String)
  | badKey (fault : SettingPath.Fault)
  | fileMissing (name : String)
  | badFile (name : String)
  deriving DecidableEq, Repr, Inhabited

namespace SettingsFault

def describe : SettingScalar → String
  | .unit => "unit value"
  | .bool b => "boolean `" ++ toString b ++ "`"
  | .integer n => "integer `" ++ toString n ++ "`"
  | .float bits =>
    let text := SettingScalar.floatText bits
    let finite := match Decimal.magnitude bits with
      | .zero | .finite .. => true
      | .nan | .infinite => false
    "floating point `" ++ text ++ (if finite && !text.toList.contains '.' then ".0" else "") ++ "`"
  | .text s => "string " ++ Text.quoted s

def message : SettingsFault → String
  | wrongType found expected key origin =>
    "invalid type: " ++ found ++ ", expected " ++ expected ++ " for key `" ++ key ++ "`" ++
      (origin.map (" in " ++ ·)).getD ""
  | wrongShape found => "invalid type: " ++ describe found ++ ", expected struct TokenizerSettings"
  | tooShort length =>
    "invalid length " ++ toString length ++ ", expected struct TokenizerSettings with 4 elements"
  | missingField name => "missing field `" ++ name ++ "`"
  | badKey fault => fault.message
  | fileMissing name => "configuration file \"" ++ name ++ "\" not found"
  | badFile name => "TOML parse error in " ++ name

end SettingsFault

end StackLexer
