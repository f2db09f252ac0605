import StackLexer.Grammar.Pattern
import StackLexer.Grammar.Rule

/-! Rule sets ready for scanning.
All states, named ones and those made from pushed lists, are numbered together. -/

namespace StackLexer

structure StateId where
  index : Nat
  deriving DecidableEq, Repr, Inhabited

inductive Transition where
  | stay
  | pop
  /-- Puts another state in place of the top one. -/
  | goto (state : StateId)
  | push (state : StateId)
  deriving DecidableEq, Repr, Inhabited

namespace Lexicon

/-- A rule. Rules with the same regex and the same case flag share one pattern, whose number
among the patterns is `slot`. -/
structure Rule where
  slot : Nat
  pattern : Pattern
  tokens : TokenSpec
  transition : Transition
  deriving Inhabited

structure State where
  name : Option String := none
  rules : Array Rule := #[]
  defaultToken : Option String := none
  deriving Inhabited

end Lexicon

structure Lexicon where
  states : Array Lexicon.State
  names : List String
  start : StateId
  patterns : Array Pattern
  deriving Inhabited

namespace Lexicon

/-- The state with a number. Numbers beyond the last have a state without rules. -/
def state (x : Lexicon) (id : StateId) : State := x.states[id.index]?.getD {}

def stateId? (x : Lexicon) (name : String) : Option StateId :=
  (x.names.idxOf? name).map StateId.mk

def stateCount (x : Lexicon) : Nat := x.states.size

def patternCount (x : Lexicon) : Nat := x.patterns.size

end Lexicon

end StackLexer
