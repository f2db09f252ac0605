import StackLexer.Yaml.Text

/-! Scalars in a block of their own, with a bar or an angle bracket before it.
The block is as far indented as its first line that is not blank, and ends before a line that is
less indented. After a bar lines are kept, after an angle bracket two neighbouring lines that begin
without a blank are joined. -/

namespace StackLexer.Yaml

inductive Chomp where
  | strip
  | clip
  | keep
  deriving DecidableEq, Repr, Inhabited

structure BlockHeader where
  chomp : Chomp := .clip
  indent : Option Nat := none
  deriving DecidableEq, Repr, Inhabited

namespace BlockHeader

def chomp? : Char → Option Chomp
  | '+' => some .keep
  | '-' => some .strip
  | _ => none

def signs (h : BlockHeader) : List Char → Option (BlockHeader × List Char)
  | c :: rest =>
    match chomp? c with
    | some chomp =>
      match rest with
      | d :: more =>
        if !d.isDigit then some ({ h with chomp }, rest)
        else if d = '0' then none
        else some (⟨chomp, some (d.toNat - 48)⟩, more)
      | [] => some ({ h with chomp }, rest)
    | none =>
      if !c.isDigit then some (h, c :: rest)
      else if c = '0' then none
      else
        let indent := some (c.toNat - 48)
        match rest with
        | d :: more =>
          match chomp? d with
          | some chomp => some (⟨chomp, indent⟩, more)
          | none => some ({ h with indent }, rest)
        | [] => some ({ h with indent }, rest)
  | [] => some (h, [])

def read (text : List Char) : Option (BlockHeader × List Char) :=
  match signs {} text with
  | none => none
  | some (h, rest) =>
    let rest := rest.dropWhile isBlank
    let rest := if rest.head? = some '#' then rest.dropWhile (fun c => !isBreak c) else rest
    match rest with
    | [] => some (h, [])
    | c :: more => if isBreak c then some (h, more) else none

end BlockHeader

/-- The part of a block that has been read: its text, the line end that is still to be kept or
joined, those of the blank lines after it, and whether the last line began with a blank. -/
structure Block where
  literal : Bool
  text : List Char := []
  lineEnd : Option Char := none
  blankLines : List Char := []
  indented : Bool := false
  deriving DecidableEq, Repr, Inhabited

namespace Block

def startLine (b : Block) (c : Char) : Block :=
  let joined := !b.literal && b.lineEnd = some '\n' && !b.indented && !isBlank c
  let between := if !joined then b.lineEnd.toList else if b.blankLines.isEmpty then [' '] else []
  { b with
    text := b.text ++ between ++ b.blankLines ++ [c]
    lineEnd := none
    blankLines := []
    indented := isBlank c }

def char (b : Block) (c : Char) : Block := { b with text := b.text ++ [c] }

def endLine (b : Block) (c : Char) : Block := { b with lineEnd := some c }

def blankLine (b : Block) (c : Char) : Block := { b with blankLines := b.blankLines ++ [c] }

def finish (b : Block) : Chomp → List Char
  | .strip => b.text
  | .clip => b.text ++ b.lineEnd.toList
  | .keep => b.text ++ b.lineEnd.toList ++ b.blankLines

end Block

def blockLines (indent column : Nat) (inText : Bool) (b : Block) :
    List Char → Option (Block × List Char)
  | [] => some (b, [])
  | c :: rest =>
    if inText then
      if isBreak c then blockLines indent 0 false (b.endLine c) rest
      else blockLines indent (column + 1) true (b.char c) rest
    else if isBreak c then blockLines indent 0 false (b.blankLine c) rest
    else if column < indent then
      if c = ' ' then blockLines indent (column + 1) false b rest
      else if c = '\t' then none
      else some (b, c :: rest)
    else blockLines indent (column + 1) true (b.startLine c) rest

/-- The blank lines before the text of a block, with the column of its first character, the widest
indentation so far, and the text from there. -/
def blockStart (column widest : Nat) (b : Block) :
    List Char → Option (Block × Nat × Nat × List Char)
  | [] => some (b, column, max widest column, [])
  | c :: rest =>
    if c = ' ' then blockStart (column + 1) widest b rest
    else if c = '\t' then none
    else if isBreak c then blockStart 0 (max widest column) (b.blankLine c) rest
    else some (b, column, max widest column, c :: rest)

def block (literal : Bool) (outer : Option Nat) (text : List Char) :
    Option (List Char × List Char) := do
  let (header, rest) ← BlockHeader.read text
  let start : Block := { literal }
  let (b, rest) ← match header.indent with
    | some more => blockLines (outer.getD 0 + more) 0 false start rest
    | none => do
      let (b, column, widest, rest) ← blockStart 0 0 start rest
      let indent := max (max widest ((outer.map (· + 1)).getD 0)) 1
      blockLines indent column false b rest
  return (b.finish header.chomp, rest)

end StackLexer.Yaml
