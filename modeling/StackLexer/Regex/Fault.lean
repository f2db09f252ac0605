/-! Why a text is not a pattern. -/

namespace StackLexer.Regex

inductive Fault where
  | unclosedGroup
  | unopenedGroup
  | unclosedClass
  | emptyClass
  | emptyRange
  | unmatchedRange
  | classAtRangeEnd
  | unknownClassName
  | nothingToRepeat
  | unrepeatable
  | repeatTooBig
  | endInGroup
  | endAtEscape
  | endAtControl
  | unknownGroupOption
  | emptyGroupName
  | badGroupName (name : String)
  | badCharInGroupName (name : String)
  | undefinedName (name : String)
  | undefinedGroup (name : String)
  | undefinedCallout
  | badBackref
  | badLookbehind
  | unknownProperty (name : String)
  | badCodePoint
  | numberTooBig
  /-- The text may well be a pattern, but not one that is matched here. -/
  | unsupported (what : String)
  deriving DecidableEq, Repr, Inhabited

def Fault.message : Fault → String
  | unclosedGroup => "end pattern with unmatched parenthesis"
  | unopenedGroup => "unmatched close parenthesis"
  | unclosedClass => "premature end of char-class"
  | emptyClass => "empty char-class"
  | emptyRange => "empty range in char class"
  | unmatchedRange => "unmatched range specifier in char-class"
  | classAtRangeEnd => "char-class value at end of range"
  | unknownClassName => "invalid POSIX bracket type"
  | nothingToRepeat => "target of repeat operator is not specified"
  | unrepeatable => "target of repeat operator is invalid"
  | repeatTooBig => "too big number for repeat range"
  | endInGroup => "end pattern in group"
  | endAtEscape => "end pattern at escape"
  | endAtControl => "end pattern at control"
  | unknownGroupOption => "undefined group option"
  | emptyGroupName => "group name is empty"
  | badGroupName name => "invalid group name <" ++ name ++ ">"
  | badCharInGroupName name => "invalid char in group name <" ++ name ++ ">"
  | undefinedName name => "undefined name <" ++ name ++ "> reference"
  | undefinedGroup name => "undefined group <" ++ name ++ "> reference"
  | undefinedCallout => "undefined callout name"
  | badBackref => "invalid backref number/name"
  | badLookbehind => "invalid pattern in look-behind"
  | unknownProperty name => "invalid character property name \x7b" ++ name ++ "\x7d"
  | badCodePoint => "invalid code point value"
  | numberTooBig => "too big number"
  | unsupported what => what ++ " are not supported"

end StackLexer.Regex
