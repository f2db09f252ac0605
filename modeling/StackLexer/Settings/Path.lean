import StackLexer.Settings.Value

/-! Places of settings: a name, followed by names after points and numbers in square brackets. -/

namespace StackLexer

namespace SettingPath

inductive Step where
  | key (name : String)
  | index (n : Int)
  deriving DecidableEq, Repr, Inhabited

inductive Fault where
  | name
  | sign
  | digit
  | range
  deriving DecidableEq, Repr, Inhabited

def Fault.message : Fault → String
  | name => "IsA"
  | sign => "Char"
  | digit => "Digit"
  | range => "Map on Result"

end SettingPath

structure SettingPath where
  root : String
  steps : List SettingPath.Step
  deriving DecidableEq, Repr, Inhabited

namespace SettingPath

def isNameChar (c : Char) : Bool := c.isAlphanum || c = ' ' || c = '_' || c = '-'

def name? (text : List Char) : Option (String × List Char) :=
  let name := text.takeWhile isNameChar
  if name.isEmpty then none else some (String.ofList name, text.dropWhile isNameChar)

def index (text : List Char) : Except Fault (Int × List Char) :=
  let isBlank (c : Char) : Bool := c = ' ' || c = '\t'
  let text := text.dropWhile isBlank
  let (negative, text) := match text with
    | '-' :: rest => (true, rest)
    | _ => (false, text)
  let digits := text.takeWhile Char.isDigit
  if digits.isEmpty then .error .digit
  else
    let n : Int := digits.foldl (fun n c => n * 10 + (c.toNat - 48)) 0
    let n := if negative then -n else n
    if n < -0x8000000000000000 ∨ 0x8000000000000000 ≤ n then .error .range
    else match (text.dropWhile Char.isDigit).dropWhile isBlank with
      | ']' :: rest => .ok (n, rest)
      | _ => .error .sign

def readSteps (text : List Char) : Except Fault (List Step) :=
  match text with
  | [] => .ok []
  | '.' :: rest =>
    match name? rest with
    | some (name, more) =>
      if more.length ≤ rest.length then (readSteps more).map (.key name :: ·) else .error .sign
    | none => .error .sign
  | '[' :: rest =>
    match index rest with
    | .ok (n, more) =>
      if more.length ≤ rest.length then (readSteps more).map (.index n :: ·) else .error .sign
    | .error f => .error f
  | _ => .error .sign
termination_by text.length

def ofString (s : String) : Except Fault SettingPath :=
  match name? s.toList with
  | some (root, rest) => (readSteps rest).map (SettingPath.mk root)
  | none => .error .name

end SettingPath

namespace SettingValue

/-- Items with a value put in the place of one, after as many empty ones as it takes. Negative
numbers count from the end. -/
def putItem (items : List SettingValue) (n : Int) (value : Option SettingValue → SettingValue) :
    List SettingValue :=
  let n := (if n ≥ 0 then n else n + items.length).toNat
  let items := items ++ List.replicate (n + 1 - items.length) (scalar none .unit)
  items.set n (value items[n]?)

def listOrigin : SettingValue → Option String
  | list origin _ => origin
  | _ => none

/-- Sets a value at the end of a path that begins here. Values on the way that are no tables or
lists are replaced by such. -/
def put (value : SettingValue) (here : Option SettingValue) :
    List SettingPath.Step → SettingValue
  | [] => assign here value
  | .key name :: rest =>
    let key := Unicode.lowerText name
    let entries := (here.map entries).getD []
    table (putEntry entries key (put value (entries.lookup key) rest))
  | [.index n] =>
    list (here.bind listOrigin) (putItem ((here.map items).getD []) n (fun _ => value))
  | .index n :: rest =>
    list (here.bind listOrigin) (putItem ((here.map items).getD []) n (put value · rest))

def putAt (root : Entries) (path : SettingPath) (value : SettingValue) : Entries :=
  (put value (some (table root)) (.key path.root :: path.steps)).entries

end SettingValue

end StackLexer
