/-! Values of a TOML document. -/

namespace StackLexer.Toml

inductive Value where
  | string (text : String)
  | integer (value : Int)
  | float (bits : UInt64)
  | bool (value : Bool)
  | date (text : String)
  | array (items : List Value)
  | table (entries : List (String × Value))
  deriving Repr, Inhabited

end StackLexer.Toml
