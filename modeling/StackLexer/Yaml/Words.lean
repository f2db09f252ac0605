import StackLexer.Yaml.Text

/-! Scalars whose words may stand on several lines: those in quotes and plain ones.
Blanks between two words of a line are kept. Where lines end between two words, all blanks there
are dropped, and the line ends count one less than there are, or as one blank when there is only
one. -/

namespace StackLexer.Yaml

inductive Gap where
  | blanks (text : List Char)
  /-- Line ends, of which the first is missing if it was escaped. -/
  | breaks (first : Option Char) (more : List Char)
  deriving DecidableEq, Repr, Inhabited

namespace Gap

def add (gap : Gap) (c : Char) : Gap :=
  match gap with
  | blanks text => if isBreak c then breaks (some c) [] else blanks (text ++ [c])
  | breaks first more => if isBreak c then breaks first (more ++ [c]) else gap

def text : Gap → List Char
  | blanks text => text
  | breaks (some '\n') [] => [' ']
  | breaks (some '\n') more => more
  | breaks first more => first.toList ++ more

def isEmpty : Gap → Bool
  | blanks text => text.isEmpty
  | breaks .. => false

def isBroken : Gap → Bool
  | blanks _ => false
  | breaks .. => true

end Gap

structure Words where
  text : List Char := []
  gap : Gap := .blanks []
  deriving DecidableEq, Repr, Inhabited

namespace Words

def all (w : Words) : List Char := w.text ++ w.gap.text

def space (w : Words) (c : Char) : Words := { w with gap := w.gap.add c }

def char (w : Words) (c : Char) : Words := ⟨w.all ++ [c], .blanks []⟩

def escapedBreak (w : Words) : Words := ⟨w.all, .breaks none []⟩

end Words

def singleQuoted (column : Nat) (w : Words) : List Char → Option (List Char × List Char)
  | [] => none
  | '\'' :: '\'' :: rest => singleQuoted (column + 2) (w.char '\'') rest
  | c :: rest =>
    if isSpace c then singleQuoted (columnAfter column c) (w.space c) rest
    else if column = 0 && isDocumentMark (c :: rest) then none
    else if c = '\'' then some (w.all, rest)
    else singleQuoted (column + 1) (w.char c) rest

def escaped? : Char → Option Char
  | '0' => some '\x00'
  | 'a' => some '\x07'
  | 'b' => some '\x08'
  | 't' | '\t' => some '\t'
  | 'n' => some '\n'
  | 'v' => some '\x0b'
  | 'f' => some '\x0c'
  | 'r' => some '\r'
  | 'e' => some '\x1b'
  | ' ' => some ' '
  | '"' => some '"'
  | '/' => some '/'
  | '\\' => some '\\'
  | 'N' => some '\x85'
  | '_' => some '\xa0'
  | 'L' => some '\u2028'
  | 'P' => some '\u2029'
  | _ => none

def escapeDigits? : Char → Option Nat
  | 'x' => some 2
  | 'u' => some 4
  | 'U' => some 8
  | _ => none

def hexDigit? (c : Char) : Option Nat :=
  if '0' ≤ c ∧ c ≤ '9' then some (c.toNat - 48)
  else if 'a' ≤ c ∧ c ≤ 'f' then some (c.toNat - 87)
  else if 'A' ≤ c ∧ c ≤ 'F' then some (c.toNat - 55)
  else none

def numbered? (count : Nat) (text : List Char) : Option Char :=
  if text.length < count then none
  else
    ((text.take count).foldlM (fun n c => (hexDigit? c).map (n * 16 + ·)) 0).bind (fun n =>
      if n.isValidChar then some (Char.ofNat n) else none)

def doubleQuoted (column : Nat) (w : Words) (text : List Char) : Option (List Char × List Char) :=
  match text with
  | [] => none
  | c :: rest =>
    if isSpace c then doubleQuoted (columnAfter column c) (w.space c) rest
    else if column = 0 && isDocumentMark (c :: rest) then none
    else if c = '"' then some (w.all, rest)
    else if c = '\\' then
      match rest with
      | [] => none
      | e :: rest =>
        if isBreak e then doubleQuoted 0 w.escapedBreak rest
        else match escaped? e with
          | some x => doubleQuoted (column + 2) (w.char x) rest
          | none =>
            match escapeDigits? e with
            | none => none
            | some count =>
              match numbered? count rest with
              | none => none
              | some x => doubleQuoted (column + 2 + count) (w.char x) (rest.drop count)
    else doubleQuoted (column + 1) (w.char c) rest
termination_by text.length
decreasing_by all_goals (simp only [List.length_cons, List.length_drop]; omega)

def isFlowMark (c : Char) : Bool := [',', '[', ']', '\x7b', '\x7d'].contains c

/-- Whether a plain scalar ends before a character, and `none` if the character may not stand
there. `inFlow` says that the scalar is in brackets. -/
def endsPlain? (inFlow : Bool) (c : Char) (rest : List Char) : Option Bool :=
  if c = ':' then
    match rest with
    | next :: _ =>
      if inFlow && (isFlowMark next || next = '?') then none else some (isSpace next)
    | [] => some true
  else some (inFlow && isFlowMark c)

/-- A plain scalar with the gap after it, and what follows. Lines that go on with the scalar are
indented by `indent` columns at least, unless it is in brackets. -/
def plain (inFlow : Bool) (indent column : Nat) (w : Words) :
    List Char → Option (Words × List Char)
  | [] => some (w, [])
  | c :: rest =>
    if isSpace c then
      if w.gap.isBroken && column < indent && c = '\t' then none
      else plain inFlow indent (columnAfter column c) (w.space c) rest
    else if !w.gap.isEmpty && ((!inFlow && column < indent) || c = '#') ||
        column = 0 && isDocumentMark (c :: rest) then some (w, c :: rest)
    else match endsPlain? inFlow c rest with
      | none => none
      | some true => some (w, c :: rest)
      | some false => plain inFlow indent (column + 1) (w.char c) rest

end StackLexer.Yaml
