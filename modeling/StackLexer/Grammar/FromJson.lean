import StackLexer.Grammar.Field
import StackLexer.Json.Draft
import StackLexer.Text.Quoted

/-! Rule sets from JSON.
A rule is an object of fields or a list that gives the fields by position; a field that is null is
absent. Reading follows the text and stops at the first thing that is wrong, be it the text or what
it says. What stands under `token` and `push` is read to its end first and then either fits or
does not. -/

namespace StackLexer

open Json (Draft)

inductive Shape where
  | map
  | sequence
  | rule
  | string
  | boolean
  deriving DecidableEq, Repr, Inhabited

def Shape.text : Shape → String
  | map => "a map"
  | sequence => "a sequence"
  | rule => "struct RawRule"
  | string => "a string"
  | boolean => "a boolean"

inductive DecodeError where
  | badText (f : Json.Fault)
  | wrongType (found : Draft) (expected : Shape)
  | unknownField (name : String)
  | duplicateField (field : Field)
  | surplus (length : Nat)
  | badToken
  | badPush
  deriving Repr, Inhabited, BEq

namespace DecodeError

def describe : Draft → String
  | .fault f => f.message
  | .null => "null"
  | .bool b => "boolean `" ++ toString b ++ "`"
  | .number (.integer n) => "integer `" ++ toString n ++ "`"
  | .number (.double bits) => "floating point `" ++ Json.Number.doubleText bits ++ "`"
  | .string s => "string " ++ Text.quoted s
  | .array .. => "sequence"
  | .object .. => "map"

def fieldList : String :=
  ", ".intercalate (Field.all.map (fun f => "`" ++ f.name ++ "`"))

def message : DecodeError → String
  | badText f => f.message
  | wrongType found expected => "invalid type: " ++ describe found ++ ", expected " ++ expected.text
  | unknownField name => "unknown field `" ++ name ++ "`, expected one of " ++ fieldList
  | duplicateField field => "duplicate field `" ++ field.name ++ "`"
  | surplus length =>
    "invalid length " ++ toString length ++ ", expected fewer elements in array"
  | badToken => "data did not match any variant of untagged enum TokenSpec"
  | badPush => "data did not match any variant of untagged enum PushSpec"

end DecodeError

namespace Decode

def mismatch (d : Draft) (expected : Shape) : DecodeError :=
  match d with
  | .fault f => .badText f
  | _ => .wrongType d expected

def string : Draft → Except DecodeError String
  | .string s => .ok s
  | d => .error (mismatch d .string)

def boolean : Draft → Except DecodeError Bool
  | .bool b => .ok b
  | d => .error (mismatch d .boolean)

def strings? : List Draft → Option (List String)
  | [] => some []
  | .string s :: rest => (strings? rest).map (s :: ·)
  | _ => none

def token : Draft → Except DecodeError TokenSpec
  | .string s => .ok (.single s)
  | .array items rest =>
    match (Draft.array items rest).fault? with
    | some f => .error (.badText f)
    | none =>
      match strings? items with
      | some kinds => .ok (.groups kinds)
      | none => .error .badToken
  | d =>
    match d.fault? with
    | some f => .error (.badText f)
    | none => .error .badToken

def optional {α : Type} (decode : Draft → Except DecodeError α) :
    Draft → Except DecodeError (Option α)
  | .null => .ok none
  | d => (decode d).map some

def setField (push : Draft → Except DecodeError Push) (rule : Rule) (field : Field) (d : Draft) :
    Except DecodeError Rule :=
  match field with
  | .token => (optional token d).map (fun v => { rule with token := v })
  | .regex => (optional string d).map (fun v => { rule with regex := v })
  | .next => (optional string d).map (fun v => { rule with next := v })
  | .push => (optional push d).map (fun v => { rule with push := v })
  | .defaultToken => (optional string d).map (fun v => { rule with defaultToken := v })
  | .includes => (optional string d).map (fun v => { rule with includes := v })
  | .caseInsensitive => (optional boolean d).map (fun v => { rule with caseInsensitive := v })
  | .comment => (optional string d).map (fun v => { rule with comment := v })

mutual

def push? : Draft → Option Push
  | .array items _ => (rules? items).map .rules
  | .string s => some (.state s)
  | _ => none

def rules? : List Draft → Option (List Rule)
  | [] => some []
  | d :: rest =>
    match rule? d, rules? rest with
    | some rule, some rules => some (rule :: rules)
    | _, _ => none

def rule? : Draft → Option Rule
  | .object members _ => members? {} [] members
  | .array items _ => positions? {} Field.all items
  | _ => none

/-- The rule with the given members added, none of which is among the fields `seen`. -/
def members? (rule : Rule) (seen : List Field) : List (String × Draft) → Option Rule
  | [] => some rule
  | (name, d) :: rest =>
    match Field.ofName? name with
    | none => none
    | some field =>
      if field ∈ seen then none
      else
        let pushed := push? d
        match setField (fun _ => pushed.elim (.error .badPush) .ok) rule field d with
        | .ok rule => members? rule (field :: seen) rest
        | .error _ => none

def positions? (rule : Rule) (fields : List Field) : List Draft → Option Rule
  | [] => some rule
  | d :: rest =>
    match fields with
    | [] => none
    | field :: fields =>
      let pushed := push? d
      match setField (fun _ => pushed.elim (.error .badPush) .ok) rule field d with
      | .ok rule => positions? rule fields rest
      | .error _ => none

end

def push (d : Draft) : Except DecodeError Push :=
  match d.fault? with
  | some f => .error (.badText f)
  | none =>
    match push? d with
    | some pushed => .ok pushed
    | none => .error .badPush

def members (rule : Rule) (seen : List Field) :
    List (String × Draft) → Except DecodeError Rule
  | [] => .ok rule
  | (name, d) :: rest =>
    match Field.ofName? name with
    | none => .error (.unknownField name)
    | some field =>
      if field ∈ seen then .error (.duplicateField field)
      else
        match setField push rule field d with
        | .ok rule => members rule (field :: seen) rest
        | .error e => .error e

/-- Reads the items of a rule in the order of the fields. Returns how many are left over. -/
def positions (rule : Rule) (fields : List Field) :
    List Draft → Except DecodeError (Rule × Nat)
  | [] => .ok (rule, 0)
  | d :: rest =>
    match fields with
    | [] => .ok (rule, rest.length + 1)
    | field :: fields =>
      match setField push rule field d with
      | .ok rule => positions rule fields rest
      | .error e => .error e

/-- Whether a document is read from its text, or was a value from the start. They differ in what
is said of a list with too many items. -/
inductive Origin where
  | text
  | value
  deriving DecidableEq, Repr, Inhabited

def afterLast (full : Bool) : Json.Fault → Json.Fault
  | .expectedListCommaOrEnd => if full then .trailingCharacters else .expectedListCommaOrEnd
  | f => f

def rule (origin : Origin) : Draft → Except DecodeError Rule
  | .object entries rest => do
    let rule ← members {} [] entries
    match rest with
    | some f => .error (.badText f)
    | none => .ok rule
  | .array items rest => do
    let (rule, surplus) ← positions {} Field.all items
    if surplus > 0 then
      match origin with
      | .text => .error (.badText .trailingCharacters)
      | .value => .error (.surplus items.length)
    else match rest with
      | some f => .error (.badText (afterLast (items.length = Field.all.length) f))
      | none => .ok rule
  | d => .error (mismatch d .rule)

def rules (origin : Origin) : Draft → Except DecodeError (List Rule)
  | .array items rest => do
    let rules ← items.mapM (rule origin)
    match rest with
    | some f => .error (.badText f)
    | none => .ok rules
  | d => .error (mismatch d .sequence)

def ruleSet (origin : Origin) : Draft → Except DecodeError RuleSet
  | .object entries rest => do
    let states ← entries.mapM (fun (name, d) => do return (name, ← rules origin d))
    match rest with
    | some f => .error (.badText f)
    | none => .ok { states := .ofEntries states }
  | d => .error (mismatch d .map)

end Decode

namespace RuleSet

def ofJson (json : Json) : Except DecodeError RuleSet :=
  Decode.ruleSet .value (Draft.ofJson json)

def ofJsonText (text : String) : Except DecodeError RuleSet := do
  let (draft, trailing) := Draft.read text
  let set ← Decode.ruleSet .text draft
  match trailing with
  | some f => .error (.badText f)
  | none => .ok set

end RuleSet

end StackLexer
