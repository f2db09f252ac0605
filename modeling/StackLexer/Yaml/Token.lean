import StackLexer.Yaml.Scalar

/-! The tokens of a document. Line layout shows in them as the starts and ends of blocks. -/

namespace StackLexer.Yaml

inductive Token where
  | version (major minor : Nat)
  | tagHandle (handle : String) (expansion : String)
  | documentStart
  | documentEnd
  | blockSequenceStart
  | blockMappingStart
  | blockEnd
  | flowSequenceStart
  | flowSequenceEnd
  | flowMappingStart
  | flowMappingEnd
  | blockEntry
  | flowEntry
  | key
  | value
  | reference (name : String)
  | anchor (name : String)
  | tag (handle suffix : String)
  | scalar (text : String) (style : Style)
  deriving DecidableEq, Repr, Inhabited

end StackLexer.Yaml
