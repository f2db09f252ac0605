import StackLexer.Decimal.Shortest
import StackLexer.Json.Value
import StackLexer.Text.Quoted
import StackLexer.Toml.Value
import StackLexer.Unicode.Lowercase

/-! Values that settings are made from.
A value knows the file it comes from. A table does not, because it may come from several: setting a
table adds its entries to the table that is there. Keys are in small letters. -/

namespace StackLexer

inductive SettingScalar where
  | unit
  | bool (value : Bool)
  | integer (value : Int)
  | float (bits : UInt64)
  | text (value : String)
  deriving DecidableEq, Repr, Inhabited

inductive SettingValue where
  | scalar (origin : Option String) (s : SettingScalar)
  | list (origin : Option String) (items : List SettingValue)
  | table (entries : List (String × SettingValue))
  deriving Repr, Inhabited

/-- A double without exponent, and without a point when it is whole. -/
def SettingScalar.floatText (bits : UInt64) : String :=
  let sign := if Decimal.isNegative bits then "-" else ""
  match Decimal.magnitude bits with
  | .nan => "NaN"
  | .infinite => sign ++ "inf"
  | .zero => sign ++ "0"
  | .finite mantissa exponent narrow =>
    sign ++ String.ofList (Decimal.shortest mantissa exponent narrow).strip.positional

namespace SettingValue

abbrev Entries := List (String × SettingValue)

mutual

def ofToml (origin : String) : Toml.Value → SettingValue
  | .string s => scalar (some origin) (.text s)
  | .integer n => scalar (some origin) (.integer n)
  | .float bits => scalar (some origin) (.float bits)
  | .bool b => scalar (some origin) (.bool b)
  | .date text => scalar (some origin) (.text text)
  | .array items => list (some origin) (itemsOfToml origin items)
  | .table entries => table (entriesOfToml origin entries)

def itemsOfToml (origin : String) : List Toml.Value → List SettingValue
  | [] => []
  | item :: rest => ofToml origin item :: itemsOfToml origin rest

def entriesOfToml (origin : String) : List (String × Toml.Value) → Entries
  | [] => []
  | (key, value) :: rest => (key, ofToml origin value) :: entriesOfToml origin rest

end

mutual

def ofJson : Json → SettingValue
  | .null => scalar none .unit
  | .bool b => scalar none (.bool b)
  | .number (.integer n) => scalar none (.integer n)
  | .number (.double bits) => scalar none (.float bits)
  | .string s => scalar none (.text s)
  | .array items => list none (itemsOfJson items)
  | .object members => table (entriesOfJson members)

def itemsOfJson : List Json → List SettingValue
  | [] => []
  | item :: rest => ofJson item :: itemsOfJson rest

def entriesOfJson : List (String × Json) → Entries
  | [] => []
  | (key, value) :: rest => (key, ofJson value) :: entriesOfJson rest

end

def entries : SettingValue → Entries
  | table entries => entries
  | _ => []

def items : SettingValue → List SettingValue
  | list _ items => items
  | _ => []

def putEntry (entries : Entries) (key : String) (value : SettingValue) : Entries :=
  match entries with
  | [] => [(key, value)]
  | (k, v) :: rest => if k = key then (key, value) :: rest else (k, v) :: putEntry rest key value

mutual

/-- What stands in a place after a value has been set there. The entries of a table are set one by
one, so that a table without entries changes nothing. -/
def assign (here : Option SettingValue) : SettingValue → SettingValue
  | table incoming => assignAll (here.getD (table [])) incoming
  | value => value

def assignAll (here : SettingValue) : Entries → SettingValue
  | [] => here
  | (key, value) :: rest =>
    let key := Unicode.lowerText key
    assignAll (table (putEntry here.entries key (assign (here.entries.lookup key) value))) rest

end

end SettingValue

end StackLexer
