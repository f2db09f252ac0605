import StackLexer.Yaml.Block
import StackLexer.Yaml.Name
import StackLexer.Yaml.Token

/-! Cutting a document into tokens.
A block begins where a line is further indented than the block around it and ends before one that
is less indented. What turns out to be the key of a mapping is known only at the colon after it, on
the same line; until then its token is kept in mind as a candidate. -/

namespace StackLexer.Yaml

structure Candidate where
  position : Nat
  place : Place
  required : Bool
  deriving DecidableEq, Repr, Inhabited

structure Layout where
  tokens : Array Token := #[]
  indents : List Nat := []
  candidate : Option Candidate := none
  /-- The candidates outside the open brackets, innermost first. -/
  outer : List (Option Candidate) := []
  keyAllowed : Bool := true
  deriving Repr, Inhabited

namespace Layout

def inFlow (l : Layout) : Bool := !l.outer.isEmpty

def indent (l : Layout) : Option Nat := l.indents.head?

def push (l : Layout) (t : Token) : Layout := { l with tokens := l.tokens.push t }

def insert (l : Layout) (position : Nat) (t : Token) : Layout :=
  { l with tokens := l.tokens.insertIdxIfInBounds position t }

def allowKey (l : Layout) (allowed : Bool) : Layout := { l with keyAllowed := allowed }

def closeTo (l : Layout) (column : Option Nat) : Layout :=
  if l.inFlow then l
  else
    let deeper (n : Nat) : Bool := column.all (· < n)
    { l with
      tokens := l.tokens ++ (l.indents.takeWhile deeper).map (fun _ => Token.blockEnd)
      indents := l.indents.dropWhile deeper }

def opens (l : Layout) (column : Nat) : Bool := !l.inFlow && l.indent.all (· < column)

def openAt (l : Layout) (column : Nat) (position : Nat) (t : Token) : Layout :=
  if l.opens column then { l.insert position t with indents := column :: l.indents } else l

/-- Whether a candidate can no longer be a key: a key is on one line and not long. -/
def isStale (p : Place) (c : Candidate) : Bool :=
  c.place.line < p.line || c.place.index + 1024 < p.index

def dropStale (l : Layout) (p : Place) : Option Layout :=
  let stale (c : Option Candidate) : Bool := c.any (isStale p)
  if (l.candidate :: l.outer).any (fun c => stale c && c.any Candidate.required) then none
  else
    let keep (c : Option Candidate) : Option Candidate := c.filter (fun c => !isStale p c)
    some { l with candidate := keep l.candidate, outer := l.outer.map keep }

def dropCandidate (l : Layout) : Option Layout :=
  if l.candidate.any Candidate.required then none else some { l with candidate := none }

def markCandidate (l : Layout) (p : Place) : Option Layout :=
  if l.keyAllowed then
    l.dropCandidate.map (fun l =>
      { l with
        candidate := some ⟨l.tokens.size, p, !l.inFlow && l.indent = some p.column⟩ })
  else some l

def openFlow (l : Layout) (p : Place) (t : Token) : Option Layout :=
  (l.markCandidate p).map (fun l =>
    { (l.push t) with candidate := none, outer := l.candidate :: l.outer, keyAllowed := true })

def closeFlow (l : Layout) (t : Token) : Option Layout :=
  l.dropCandidate.map (fun l =>
    let l := match l.outer with
      | [] => l
      | candidate :: outer => { l with candidate, outer }
    (l.push t).allowKey false)

def openEntry (l : Layout) (p : Place) (block t : Token) (keyAllowed : Bool) : Option Layout :=
  if !l.inFlow && !l.keyAllowed then none
  else
    let l := l.openAt p.column l.tokens.size block
    l.dropCandidate.map (fun l => (l.push t).allowKey keyAllowed)

def value (l : Layout) (p : Place) : Option Layout :=
  match l.candidate with
  | some c =>
    let l := (l.insert c.position .key).openAt c.place.column c.position .blockMappingStart
    some (({ l with candidate := none }.push .value).allowKey false)
  | none =>
    if !l.inFlow && !l.keyAllowed then none
    else
      let l := l.openAt p.column l.tokens.size .blockMappingStart
      some ((l.push .value).allowKey (!l.inFlow))

def atMargin (l : Layout) (t : Token) : Option Layout :=
  (l.closeTo none).dropCandidate.map (fun l => (l.push t).allowKey false)

def content (l : Layout) (p : Place) (t : Token) : Option Layout :=
  (l.markCandidate p).map (fun l => (l.push t).allowKey false)

end Layout

/-- Skips blanks, comments and line ends. Tabs are skipped only where no key may begin. -/
def skipSpace (inFlow keyAllowed inComment : Bool) (p : Place) :
    List Char → Bool × Place × List Char
  | [] => (keyAllowed, p, [])
  | c :: rest =>
    if isBreak c then skipSpace inFlow (keyAllowed || !inFlow) false (p.after c) rest
    else if inComment || c = ' ' || c = '#' || (c = '\t' && (inFlow || !keyAllowed)) then
      skipSpace inFlow keyAllowed (inComment || c = '#') (p.after c) rest
    else (keyAllowed, p, c :: rest)

def beginsPlain (inFlow : Bool) (c : Char) (rest : List Char) : Bool :=
  let indicator := ['-', '?', ':', ',', '[', ']', '\x7b', '\x7d', '#', '&', '*', '!', '|', '>',
    '\'', '"', '%', '@', '\x60'].contains c
  !(isSpace c || indicator) || (c = '-' && !rest.head?.any isBlank) ||
    (!inFlow && (c = '?' || c = ':') && !atSpace rest)

def nextToken (l : Layout) (p : Place) (text : List Char) : Option (Layout × List Char) :=
  match text with
  | [] => none
  | c :: rest =>
    if p.column = 0 && c = '%' then do
      let (directive, rest) ← Directive.read rest
      let t := match directive with
        | .version major minor => Token.version major minor
        | .tagHandle handle expansion => .tagHandle handle expansion
      return (← l.atMargin t, rest)
    else if p.column = 0 && isDocumentMark text then
      (l.atMargin (if c = '-' then .documentStart else .documentEnd)).map (·, rest.drop 2)
    else if c = '[' then (l.openFlow p .flowSequenceStart).map (·, rest)
    else if c = '\x7b' then (l.openFlow p .flowMappingStart).map (·, rest)
    else if c = ']' then (l.closeFlow .flowSequenceEnd).map (·, rest)
    else if c = '\x7d' then (l.closeFlow .flowMappingEnd).map (·, rest)
    else if c = ',' then l.dropCandidate.map (fun l => ((l.push .flowEntry).allowKey true, rest))
    else if c = '-' && atSpace rest then
      (l.openEntry p .blockSequenceStart .blockEntry true).map (·, rest)
    else if c = '?' && (l.inFlow || atSpace rest) then
      (l.openEntry p .blockMappingStart .key (!l.inFlow)).map (·, rest)
    else if c = ':' && (l.inFlow || atSpace rest) then (l.value p).map (·, rest)
    else if c = '*' then do
      let (name, rest) ← anchorName rest
      return (← l.content p (.reference name), rest)
    else if c = '&' then do
      let (name, rest) ← anchorName rest
      return (← l.content p (.anchor name), rest)
    else if c = '!' then do
      let ((handle, suffix), rest) ← tagName l.inFlow rest
      return (← l.content p (.tag handle suffix), rest)
    else if (c = '|' || c = '>') && !l.inFlow then do
      let l ← l.dropCandidate
      let (scalar, rest) ← block (c = '|') l.indent rest
      let style := if c = '|' then Style.literal else .folded
      return ((l.push (.scalar (String.ofList scalar) style)).allowKey true, rest)
    else if c = '\'' then do
      let (scalar, rest) ← singleQuoted (p.column + 1) {} rest
      return (← l.content p (.scalar (String.ofList scalar) .quoted), rest)
    else if c = '"' then do
      let (scalar, rest) ← doubleQuoted (p.column + 1) {} rest
      return (← l.content p (.scalar (String.ofList scalar) .quoted), rest)
    else if beginsPlain l.inFlow c rest then do
      let indent := (l.indent.map (· + 1)).getD 0
      let (words, rest) ← plain l.inFlow indent p.column {} text
      let l ← l.content p (.scalar (String.ofList words.text) .plain)
      return (l.allowKey words.gap.isBroken, rest)
    else none

def tokensFrom (l : Layout) (p : Place) (text : List Char) : Option (List Token) :=
  let (keyAllowed, p, rest) := skipSpace l.inFlow l.keyAllowed false p text
  match (l.allowKey keyAllowed).dropStale p with
  | none => none
  | some l =>
    if rest.isEmpty then (l.closeTo none).dropCandidate.map (fun l => l.tokens.toList)
    else
      match nextToken (l.closeTo (some p.column)) p rest with
      | none => none
      | some (l, more) =>
        -- Every token takes at least one character.
        if more.length < text.length then
          let taken := rest.take (rest.length - more.length)
          tokensFrom l (taken.foldl Place.after p) more
        else none
termination_by text.length

def Token.ofText? (text : String) : Option (List Token) :=
  (characters text).bind (tokensFrom {} {})

end StackLexer.Yaml
