import StackLexer.Grammar.Field
import StackLexer.Json.Value

/-! Rule sets as JSON. Fields come in their order and absent ones are left out. -/

namespace StackLexer

def TokenSpec.toJson : TokenSpec → Json
  | single kind => .string kind
  | groups kinds => .array (kinds.map .string)

def Field.member (field : Field) (value : Option Json) : List (String × Json) :=
  match value with
  | some json => [(field.name, json)]
  | none => []

mutual

def Rule.toJson : Rule → Json
  | { token, regex, next, push, defaultToken, includes, caseInsensitive, comment } =>
    .object (
      Field.token.member (token.map TokenSpec.toJson) ++
      Field.regex.member (regex.map .string) ++
      Field.next.member (next.map .string) ++
      (match push with
        | some target => Field.push.member (some target.toJson)
        | none => []) ++
      Field.defaultToken.member (defaultToken.map .string) ++
      Field.includes.member (includes.map .string) ++
      Field.caseInsensitive.member (caseInsensitive.map .bool) ++
      Field.comment.member (comment.map .string))

def Push.toJson : Push → Json
  | .rules entries => .array (Rule.listToJson entries)
  | .state name => .string name

def Rule.listToJson : List Rule → List Json
  | [] => []
  | rule :: rest => rule.toJson :: Rule.listToJson rest

end

def RuleSet.toJson (set : RuleSet) : Json :=
  .object (set.states.entries.map (fun (name, rules) => (name, .array (Rule.listToJson rules))))

end StackLexer
