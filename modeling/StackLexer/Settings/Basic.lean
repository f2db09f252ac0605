/-! The settings of the scanner. -/

namespace StackLexer

structure Settings where
  fallbackToken : String := "text"
  /-- Pushes beyond this depth are refused. -/
  maxStackDepth : Nat := 256
  /-- How many empty matches in a row are taken at one position. -/
  maxZeroWidthSteps : Nat := 32
  mergeUnmatched : Bool := true
  deriving DecidableEq, Repr, Inhabited

end StackLexer
