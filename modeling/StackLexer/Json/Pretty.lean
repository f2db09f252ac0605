import StackLexer.Json.Value

/-! The text of a JSON value over several lines. Each item stands on a line of its own, two blanks
deeper than the brackets around it, and brackets around nothing stay together. -/

namespace StackLexer.Json

def newLine (depth : Nat) : List Char := '\n' :: List.replicate (2 * depth) ' '

mutual

def printLines (depth : Nat) : Json → List Char
  | null => "null".toList
  | bool true => "true".toList
  | bool false => "false".toList
  | number n => n.text.toList
  | string s => quote s
  | array [] => ['[', ']']
  | array (item :: rest) =>
    '[' :: printItemLines (depth + 1) (item :: rest) ++ newLine depth ++ [']']
  | object [] => ['\x7b', '\x7d']
  | object (member :: rest) =>
    '\x7b' :: printMemberLines (depth + 1) (member :: rest) ++ newLine depth ++ ['\x7d']

def printItemLines (depth : Nat) : List Json → List Char
  | [] => []
  | [item] => newLine depth ++ printLines depth item
  | item :: rest => newLine depth ++ printLines depth item ++ ',' :: printItemLines depth rest

def printMemberLines (depth : Nat) : List (String × Json) → List Char
  | [] => []
  | [(key, value)] => newLine depth ++ quote key ++ ':' :: ' ' :: printLines depth value
  | (key, value) :: rest =>
    newLine depth ++ quote key ++ ':' :: ' ' :: printLines depth value ++
      ',' :: printMemberLines depth rest

end

def pretty (json : Json) : String := String.ofList (json.printLines 0)

end StackLexer.Json
