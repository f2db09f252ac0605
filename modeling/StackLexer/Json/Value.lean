import StackLexer.Json.Number
import StackLexer.Text.Dictionary

/-! JSON values and their compact text. -/

namespace StackLexer

inductive Json where
  | null
  | bool (value : Bool)
  | number (value : Json.Number)
  | string (value : String)
  | array (items : List Json)
  | object (members : List (String × Json))
  deriving Repr, Inhabited, BEq

namespace Json

/-- The member with a given key, the last one when there are several. -/
def member? (json : Json) (key : String) : Option Json :=
  match json with
  | object members => (members.reverse.find? (fun m => m.1 == key)).map Prod.snd
  | _ => none

def nat (n : Nat) : Json := .number (.integer n)

def hexDigit (n : Nat) : Char := if n < 10 then Char.ofNat (48 + n) else Char.ofNat (87 + n)

def escapeChar (c : Char) : List Char :=
  match c with
  | '"' => ['\\', '"']
  | '\\' => ['\\', '\\']
  | '\n' => ['\\', 'n']
  | '\r' => ['\\', 'r']
  | '\t' => ['\\', 't']
  | '\x08' => ['\\', 'b']
  | '\x0c' => ['\\', 'f']
  | _ =>
    if c.toNat < 32 then ['\\', 'u', '0', '0', hexDigit (c.toNat / 16), hexDigit (c.toNat % 16)]
    else [c]

def quote (s : String) : List Char := '"' :: s.toList.flatMap escapeChar ++ ['"']

mutual

def print : Json → List Char
  | null => "null".toList
  | bool true => "true".toList
  | bool false => "false".toList
  | number n => n.text.toList
  | string s => quote s
  | array items => '[' :: printItems items ++ [']']
  | object members => '\x7b' :: printMembers members ++ ['\x7d']

def printItems : List Json → List Char
  | [] => []
  | [item] => print item
  | item :: rest => print item ++ ',' :: printItems rest

def printMembers : List (String × Json) → List Char
  | [] => []
  | [(key, value)] => quote key ++ ':' :: print value
  | (key, value) :: rest => quote key ++ ':' :: print value ++ ',' :: printMembers rest

end

def compact (json : Json) : String := String.ofList json.print

end Json

end StackLexer
