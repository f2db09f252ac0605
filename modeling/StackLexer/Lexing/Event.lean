/-! What happens while rule sets are loaded and lines are scanned, for whoever keeps a log. -/

namespace StackLexer

inductive Event where
  | stateCompiled (name : String) (rules : Nat)
  | ruleSetLoaded (states named patterns : Nat)
  | stalled (offset state : Nat)
  | pushRefused (depth limit : Nat)
  | lineStalled (line stalls : Nat)
  deriving DecidableEq, Repr, Inhabited

namespace Event

inductive Level where
  | trace
  | debug
  | warn
  deriving DecidableEq, Repr, Inhabited

def Level.name : Level → String
  | trace => "TRACE"
  | debug => "DEBUG"
  | warn => "WARN"

def level : Event → Level
  | stateCompiled .. | stalled .. => .trace
  | ruleSetLoaded .. | lineStalled .. => .debug
  | pushRefused .. => .warn

def message : Event → String
  | stateCompiled .. => "compiled state"
  | ruleSetLoaded .. => "loaded rule set"
  | stalled .. => "no rule matched, using fallback token"
  | pushRefused .. => "context stack limit reached, push ignored"
  | lineStalled .. => "characters fell through to the fallback token"

inductive Detail where
  | text (s : String)
  | count (n : Nat)
  deriving DecidableEq, Repr, Inhabited

def details : Event → List (String × Detail)
  | stateCompiled name rules => [("state", .text name), ("rules", .count rules)]
  | ruleSetLoaded states named patterns =>
    [("states", .count states), ("named", .count named), ("patterns", .count patterns)]
  | stalled offset state => [("offset", .count offset), ("state", .count state)]
  | pushRefused depth limit => [("depth", .count depth), ("limit", .count limit)]
  | lineStalled line stalls => [("line", .count line), ("stalls", .count stalls)]

end Event

end StackLexer
