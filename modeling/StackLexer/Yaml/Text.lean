/-! The text of a YAML document: its characters, its lines and places in it. -/

namespace StackLexer.Yaml

def isAllowed (c : Char) : Bool :=
  let n := c.toNat
  c = '\t' || c = '\n' || c = '\r' || (0x20 ≤ n && n ≤ 0x7E) || n = 0x85 ||
    (0xA0 ≤ n && n ≤ 0xFFFD && n ≠ 0xFEFF) || 0x10000 ≤ n

def isBlank (c : Char) : Bool := c = ' ' || c = '\t'

def isBreak (c : Char) : Bool := c = '\n' || c = '\u2028' || c = '\u2029'

def isSpace (c : Char) : Bool := isBlank c || isBreak c

def atSpace : List Char → Bool
  | [] => true
  | c :: _ => isSpace c

def uniformBreaks : List Char → List Char
  | [] => []
  | '\r' :: '\n' :: rest => '\n' :: uniformBreaks rest
  | c :: rest => (if c = '\r' || c = '\x85' then '\n' else c) :: uniformBreaks rest

/-- The characters of a document without the mark that may open it. `none` if there is one that
may not stand there. -/
def characters (text : String) : Option (List Char) :=
  let chars := match text.toList with
    | '\uFEFF' :: rest => rest
    | chars => chars
  if chars.all isAllowed then some (uniformBreaks chars) else none

def isNameChar (c : Char) : Bool := c.isAlphanum || c = '-' || c = '_'

def isDocumentMark : List Char → Bool
  | '-' :: '-' :: '-' :: rest => atSpace rest
  | '.' :: '.' :: '.' :: rest => atSpace rest
  | _ => false

structure Place where
  line : Nat := 0
  column : Nat := 0
  index : Nat := 0
  deriving DecidableEq, Repr, Inhabited

def Place.after (p : Place) (c : Char) : Place :=
  if isBreak c then ⟨p.line + 1, 0, p.index + 1⟩ else ⟨p.line, p.column + 1, p.index + 1⟩

def columnAfter (column : Nat) (c : Char) : Nat := if isBreak c then 0 else column + 1

end StackLexer.Yaml
