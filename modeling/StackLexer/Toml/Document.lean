import StackLexer.Toml.Number
import StackLexer.Toml.Table
import StackLexer.Toml.Text

/-! Reading a TOML document. -/

namespace StackLexer.Toml

def depthLimit : Nat := 80

def isBareKeyChar (c : Char) : Bool := c.isAlphanum || c = '_' || c = '-'

def keyPart? (text : List Char) : Option (String × List Char) :=
  let text := skipBlanks text
  let part := text.takeWhile isBareKeyChar
  let found := if part.isEmpty then shortString? text
    else some (String.ofList part, text.dropWhile isBareKeyChar)
  found.map (fun (name, rest) => (name, skipBlanks rest))

def keyParts? : (parts : Nat) → List Char → Option (List String × List Char)
  | 0, _ => none
  | parts + 1, text =>
    match keyPart? text with
    | none => none
    | some (name, '.' :: rest) =>
      (keyParts? parts rest).map (fun (names, rest) => (name :: names, rest))
    | some (name, rest) => some ([name], rest)

def key? (text : List Char) : Option (List String × String × List Char) :=
  match keyParts? (depthLimit - 1) text with
  | none => none
  | some (names, rest) => names.getLast?.map (fun last => (names.dropLast, last, rest))

def word? (word : String) (v : Value) (text : List Char) : Option (Value × List Char) :=
  if word.toList.isPrefixOf text then some (v, text.drop word.length) else none

mutual

def value? (depth : Nat) (text : List Char) : Option (Value × List Char) :=
  match text with
  | [] => none
  | c :: rest =>
    if c = '"' || c = '\'' then (string? text).map (fun (s, rest) => (.string s, rest))
    else if c = '[' then
      match depth with
      | 0 => none
      | depth + 1 => arrayItems? depth [] rest
    else if c = '\x7b' then
      match depth with
      | 0 => none
      | depth + 1 =>
        let rest := skipBlanks rest
        if rest.head? = some '\x7d' then some (.table [], rest.drop 1) else pairs? depth [] rest
    else if c = 't' then word? "true" (.bool true) text
    else if c = 'f' then word? "false" (.bool false) text
    else if c = 'i' || c = 'n' then special? text
    else if c = '+' || c = '-' || c.isDigit then numeral? text
    else none
termination_by (depth, text.length, 0)

def arrayItems? (depth : Nat) (read : List Value) (text : List Char) :
    Option (Value × List Char) :=
  match _h : skipSpace text with
  | [] => none
  | c :: rest =>
    if c = ']' then some (.array read.reverse, rest)
    else match value? depth (c :: rest) with
      | none => none
      | some (v, after) =>
        match skipSpace after with
        | ',' :: more =>
          if more.length < text.length then arrayItems? depth (v :: read) more else none
        | ']' :: more => some (.array (v :: read).reverse, more)
        | _ => none
termination_by (depth, text.length, 1)
decreasing_by
  · have := length_skipSpace text
    rw [_h] at this
    rcases Nat.lt_or_eq_of_le this with shorter | same
    · exact Prod.Lex.right _ (Prod.Lex.left _ _ shorter)
    · rw [same]
      exact Prod.Lex.right _ (Prod.Lex.right _ (by decide))
  · exact Prod.Lex.right _ (Prod.Lex.left _ _ (by assumption))

def pairs? (depth : Nat) (read : Entries) (text : List Char) : Option (Value × List Char) :=
  match key? text with
  | some (path, name, '=' :: rest) =>
    let rest := skipBlanks rest
    -- The key has been taken from the text.
    if rest.length < text.length then
      match value? depth rest with
      | none => none
      | some (v, after) =>
        match read.addPair path name v, skipBlanks after with
        | some entries, ',' :: more =>
          if more.length < text.length then pairs? depth entries more else none
        | some entries, '\x7d' :: more => some (.table (entryValues entries), more)
        | _, _ => none
    else none
  | _ => none
termination_by (depth, text.length, 1)
decreasing_by all_goals exact Prod.Lex.right _ (Prod.Lex.left _ _ (by assumption))

end

def header? (double : Bool) (text : List Char) : Option (List String × String × List Char) :=
  match key? text with
  | some (path, name, ']' :: rest) =>
    if double then (after? ']' rest).bind (fun rest => (endLine? rest).map (path, name, ·))
    else (endLine? rest).map (path, name, ·)
  | _ => none

def pair? (text : List Char) : Option (List String × String × Value × List Char) :=
  match key? text with
  | some (path, name, '=' :: rest) => do
    let (v, rest) ← value? (depthLimit - 1) (skipBlanks rest)
    return (path, name, v, ← endLine? rest)
  | _ => none

/-- Reads one line into the table with a header. Returns the entries, the header that holds from
there and the lines after it. -/
def line? (entries : Entries) (header : List String) (text : List Char) :
    Option (Entries × List String × List Char) :=
  match skipBlanks text with
  | '[' :: '[' :: rest => do
    let (path, name, rest) ← header? true rest
    return (← entries.addToTables path name, path ++ [name], rest)
  | '[' :: rest => do
    let (path, name, rest) ← header? false rest
    return (← entries.addTable path name, path ++ [name], rest)
  | rest =>
    match endLine? rest with
    | some after => some (entries, header, after)
    | none => do
      let (path, name, v, rest) ← pair? rest
      return (← entries.addPairAt header path name v, header, rest)

def lines? (entries : Entries) (header : List String) (text : List Char) : Option Entries :=
  if text.isEmpty then some entries
  else match line? entries header text with
    | none => none
    | some (entries, header, rest) =>
      -- A line has at least one character.
      if rest.length < text.length then lines? entries header rest else none
termination_by text.length

/-- The entries of a document, in front of which a byte order mark may stand. -/
def document? (text : String) : Option (List (String × Value)) :=
  let chars := match text.toList with
    | '\uFEFF' :: rest => rest
    | chars => chars
  (lines? [] [] chars).map entryValues

end StackLexer.Toml
