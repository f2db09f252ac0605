import StackLexer.Grammar.FromJson

/-! Why a rule set cannot be loaded. Loading is all or nothing, and once it has succeeded no line
of text can fail. -/

namespace StackLexer

inductive Malformed where
  | regexWithoutToken
  | tokenWithoutRegex
  | nothingToDo
  | nextAndPush
  | emptyTokenList
  | includeWithOthers
  | defaultWithMatching
  deriving DecidableEq, Repr, Inhabited

def Malformed.message : Malformed → String
  | regexWithoutToken => "`regex` without `token`"
  | tokenWithoutRegex => "`token` without `regex`"
  | nothingToDo => "rule needs `token` and `regex`, `include`, or `defaultToken`"
  | nextAndPush => "`next` and `push` cannot be combined"
  | emptyTokenList => "empty `token` list"
  | includeWithOthers => "`include` cannot be combined with other fields"
  | defaultWithMatching => "`defaultToken` cannot be combined with matching fields"

inductive LoadError where
  | parse (message : String)
  | malformed (state : String) (index : Nat) (reason : Malformed)
  | groupCount (state : String) (index : Nat) (regex : String) (tokens groups : Nat)
  | invalidRegex (state : String) (index : Nat) (regex fault : String)
  | unknownInclude (state target : String)
  /-- The states of the cycle, the first one again at the end. -/
  | circularInclude (cycle : List String)
  | unknownState (state : String) (index : Nat) (target : String)
  | missingStart (name : String)
  deriving DecidableEq, Repr, Inhabited

namespace LoadError

private def place (state : String) (index : Nat) : String :=
  "rule " ++ toString index ++ " in state `" ++ state ++ "`"

def regexMessage (fault : String) : String := "Oniguruma error: " ++ fault

def message : LoadError → String
  | parse text => "failed to parse rule set: " ++ text
  | malformed state index reason => place state index ++ ": " ++ reason.message
  | groupCount state index regex tokens groups =>
    place state index ++ ": " ++ toString tokens ++ " token types for " ++ toString groups ++
      " capturing groups in `" ++ regex ++ "`"
  | invalidRegex state index regex fault =>
    place state index ++ ": invalid regex `" ++ regex ++ "`: " ++ regexMessage fault
  | unknownInclude state target =>
    "state `" ++ state ++ "` includes unknown state `" ++ target ++ "`"
  | circularInclude cycle => "circular include: " ++ " -> ".intercalate cycle
  | unknownState state index target =>
    place state index ++ " transitions to unknown state `" ++ target ++ "`"
  | missingStart name => "rule set has no `" ++ name ++ "` state"

end LoadError

end StackLexer
