import StackLexer.Settings.Basic
import StackLexer.Settings.Fault

/-! The settings that a table of values describes.
Values convert where that makes sense: numbers and truth values to one another, texts to both, and
scalars to texts. -/

namespace StackLexer

namespace SettingValue

def most : Nat := 0xffffffffffffffff

/-- The number nearest to a double, of two the one farther from zero, within 64 bits. -/
def floatCount (bits : UInt64) : Nat :=
  match Decimal.magnitude bits with
  | .nan | .zero => 0
  | .infinite => if Decimal.isNegative bits then 0 else most
  | .finite mantissa exponent _ =>
    if Decimal.isNegative bits then 0
    else if exponent ≥ 64 then most
    else if exponent ≥ 0 then min most (mantissa * Nat.pow 2 exponent.toNat)
    else
      let parts := Nat.pow 2 (-exponent).toNat
      min most ((2 * mantissa + parts) / (2 * parts))

def textCount? (s : String) : Option Nat :=
  let digits := match s.toList with
    | '+' :: rest => rest
    | rest => rest
  if digits.isEmpty || !digits.all Char.isDigit then none
  else
    let n := digits.foldl (fun n c => n * 10 + (c.toNat - 48)) 0
    if n ≤ most then some n else none

def wrong (key : String) (origin : Option String) (found expected : String) : SettingsFault :=
  .wrongType found expected key origin

def wrongCollection (key expected : String) : SettingValue → SettingsFault
  | list origin _ => wrong key origin "sequence" expected
  | table _ => wrong key none "map" expected
  | scalar origin _ => wrong key origin "unit value" expected

def text (key : String) : SettingValue → Except SettingsFault String
  | scalar origin s =>
    match s with
    | .text s => .ok s
    | .bool b => .ok (toString b)
    | .integer n => .ok (toString n)
    | .float bits => .ok (SettingScalar.floatText bits)
    | .unit => .error (wrong key origin "unit value" "a string")
  | v => .error (wrongCollection key "a string" v)

def integerShown (n : Int) : String :=
  let kind :=
    if n > most then "128-bit unsigned integer"
    else if n < -0x8000000000000000 then "128-bit integer"
    else "64-bit integer"
  kind ++ " `" ++ toString n ++ "`"

def count (key : String) : SettingValue → Except SettingsFault Nat
  | scalar origin s =>
    match s with
    | .integer n =>
      if 0 ≤ n ∧ n ≤ most then .ok n.toNat
      else .error (wrong key origin (integerShown n) "an unsigned 64 bit or less integer")
    | .float bits => .ok (floatCount bits)
    | .bool b => .ok b.toNat
    | .text s =>
      let small := Unicode.lowerText s
      if ["true", "on", "yes"].contains small then .ok 1
      else if ["false", "off", "no"].contains small then .ok 0
      else match textCount? s with
        | some n => .ok n
        | none => .error (wrong key origin ("string " ++ Text.quoted s) "an integer")
    | .unit => .error (wrong key origin "unit value" "an integer")
  | v => .error (wrongCollection key "an integer" v)

def flag (key : String) : SettingValue → Except SettingsFault Bool
  | scalar origin s =>
    match s with
    | .bool b => .ok b
    | .integer n => .ok (n ≠ 0)
    | .float bits => .ok (Decimal.magnitude bits ≠ .zero)
    | .text s =>
      let small := Unicode.lowerText s
      if ["1", "true", "on", "yes"].contains small then .ok true
      else if ["0", "false", "off", "no"].contains small then .ok false
      else .error (wrong key origin ("string " ++ Text.quoted small) "a boolean")
    | .unit => .error (wrong key origin "unit value" "a boolean")
  | v => .error (wrongCollection key "a boolean" v)

end SettingValue

namespace Settings

def tableName : String := "tokenizer"

def field {α : Type} (entries : SettingValue.Entries) (name : String)
    (read : String → SettingValue → Except SettingsFault α) : Except SettingsFault (Option α) :=
  match entries.lookup name with
  | none => .ok none
  | some v => (read (tableName ++ "." ++ name) v).map some

def required {α : Type} (name : String) : Option α → Except SettingsFault α
  | some a => .ok a
  | none => .error (.missingField name)

/-- The settings in a table. That a field is missing is said only if all others are right. -/
def ofEntries (entries : SettingValue.Entries) : Except SettingsFault Settings := do
  let fallback ← field entries "fallback_token" SettingValue.text
  let depth ← field entries "max_stack_depth" SettingValue.count
  let steps ← field entries "max_zero_width_steps" SettingValue.count
  let merge ← field entries "merge_unmatched" SettingValue.flag
  return {
    fallbackToken := ← required "fallback_token" fallback
    maxStackDepth := ← required "max_stack_depth" depth
    maxZeroWidthSteps := ← required "max_zero_width_steps" steps
    mergeUnmatched := ← required "merge_unmatched" merge }

def item {α : Type} (items : List SettingValue) (n : Nat)
    (read : String → SettingValue → Except SettingsFault α) : Except SettingsFault α :=
  match items[n]? with
  | none => .error (.tooShort n)
  | some v => read (tableName ++ "[" ++ toString n ++ "]") v

def ofItems (items : List SettingValue) : Except SettingsFault Settings := do
  return {
    fallbackToken := ← item items 0 SettingValue.text
    maxStackDepth := ← item items 1 SettingValue.count
    maxZeroWidthSteps := ← item items 2 SettingValue.count
    mergeUnmatched := ← item items 3 SettingValue.flag }

def ofValues (root : SettingValue.Entries) : Except SettingsFault Settings :=
  match root.lookup tableName with
  | none => .error (.missingField tableName)
  | some (.scalar _ s) => .error (.wrongShape s)
  | some (.list _ items) => ofItems items
  | some (.table entries) => ofEntries entries

end Settings

end StackLexer
