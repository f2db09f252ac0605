import StackLexer.Grammar.Rule

/-! The fields of a rule, under the names they have in rule files. -/

namespace StackLexer

inductive Field where
  | token
  | regex
  | next
  | push
  | defaultToken
  | includes
  | caseInsensitive
  | comment
  deriving DecidableEq, Repr, Inhabited

namespace Field

/-- The fields in the order in which they are written, and in which a list gives them. -/
def all : List Field :=
  [token, regex, next, push, defaultToken, includes, caseInsensitive, comment]

def name : Field → String
  | token => "token"
  | regex => "regex"
  | next => "next"
  | push => "push"
  | defaultToken => "defaultToken"
  | includes => "include"
  | caseInsensitive => "caseInsensitive"
  | comment => "comment"

def ofName? (name : String) : Option Field := all.find? (fun f => f.name == name)

theorem ofName?_name (f : Field) : ofName? f.name = some f := by
  cases f <;> decide

end Field

end StackLexer
