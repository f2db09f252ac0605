import StackLexer.Yaml.Words

/-! Names in a document: anchors, aliases, tags and directives. -/

namespace StackLexer.Yaml

def anchorName (text : List Char) : Option (String × List Char) :=
  let name := text.takeWhile isNameChar
  let rest := text.dropWhile isNameChar
  let ended := atSpace rest ||
    rest.head?.any (fun c => ['?', ':', ',', ']', '\x7d', '%', '@', '\x60'].contains c)
  if !name.isEmpty && ended then some (String.ofList name, rest) else none

def isTagChar (verbatim : Bool) (c : Char) : Bool :=
  isNameChar c || [';', '/', '?', ':', '@', '&', '=', '+', '$', '.', '!', '~', '*', '\'', '(',
    ')'].contains c || (verbatim && [',', '[', ']'].contains c)

def percentByte? : List Char → Option (Nat × List Char)
  | '%' :: a :: b :: rest =>
    match hexDigit? a, hexDigit? b with
    | some a, some b => some (a * 16 + b, rest)
    | _, _ => none
  | _ => none

def percentMore? : Nat → Nat → List Char → Option (Nat × List Char)
  | 0, n, text => some (n, text)
  | count + 1, n, text => do
    let (byte, rest) ← percentByte? text
    if byte / 64 = 2 then percentMore? count (n * 64 + byte % 64) rest else none

def percentChar? (text : List Char) : Option (Char × List Char) := do
  let (byte, rest) ← percentByte? text
  let (count, n) ←
    if byte < 0x80 then some (0, byte)
    else if byte / 32 = 6 then some (1, byte % 32)
    else if byte / 16 = 14 then some (2, byte % 16)
    else if byte / 8 = 30 then some (3, byte % 8)
    else none
  let (n, rest) ← percentMore? count n rest
  return (Char.ofNat n, rest)

def tagText (verbatim : Bool) (read : List Char) (text : List Char) :
    Option (List Char × List Char) :=
  match text with
  | [] => some (read, [])
  | c :: rest =>
    if c = '%' then
      match percentChar? (c :: rest) with
      | none => none
      | some (x, more) =>
        if more.length ≤ rest.length then tagText verbatim (read ++ [x]) more else none
    else if isTagChar verbatim c then tagText verbatim (read ++ [c]) rest
    else some (read, c :: rest)
termination_by text.length

def someTagText (verbatim : Bool) (text : List Char) : Option (List Char × List Char) :=
  (tagText verbatim [] text).filter (fun found => !found.1.isEmpty)

def handle? : List Char → Option (String × List Char)
  | '!' :: text =>
    match text.dropWhile isNameChar with
    | '!' :: rest => some (String.ofList ('!' :: text.takeWhile isNameChar ++ ['!']), rest)
    | _ => none
  | _ => none

def tagParts (text : List Char) : Option ((String × String) × List Char) :=
  match text with
  | '<' :: rest => do
    let (suffix, rest) ← someTagText true rest
    match rest with
    | '>' :: rest => some (("", String.ofList suffix), rest)
    | _ => none
  | _ =>
    match handle? ('!' :: text) with
    | some (handle, rest) =>
      (someTagText false rest).map (fun (suffix, rest) => ((handle, String.ofList suffix), rest))
    | none =>
      (tagText false [] text).map (fun (suffix, rest) =>
        (if suffix.isEmpty then ("", "!") else ("!", String.ofList suffix), rest))

def tagName (inFlow : Bool) (text : List Char) : Option ((String × String) × List Char) :=
  (tagParts text).filter (fun (_, rest) => atSpace rest || (inFlow && rest.head? = some ','))

def versionNumber (text : List Char) : Option (Nat × List Char) :=
  let digits := text.takeWhile Char.isDigit
  if digits.isEmpty || digits.length > 9 then none
  else some (digits.foldl (fun n c => n * 10 + (c.toNat - 48)) 0, text.dropWhile Char.isDigit)

inductive Directive where
  | version (major minor : Nat)
  | tagHandle (handle expansion : String)
  deriving DecidableEq, Repr, Inhabited

namespace Directive

def readVersion (text : List Char) : Option (Directive × List Char) := do
  let (major, rest) ← versionNumber (text.dropWhile isBlank)
  match rest with
  | '.' :: rest => (versionNumber rest).map (fun (minor, rest) => (version major minor, rest))
  | _ => none

def readTagHandle (text : List Char) : Option (Directive × List Char) := do
  let text := text.dropWhile isBlank
  let (handle, rest) ← match handle? text, text with
    | some found, _ => some found
    | none, '!' :: rest => if rest.head?.any isNameChar then none else some ("!", rest)
    | none, _ => none
  if rest.head?.any isBlank then
    let (expansion, rest) ← someTagText true (rest.dropWhile isBlank)
    if atSpace rest then some (tagHandle handle (String.ofList expansion), rest) else none
  else none

def read (text : List Char) : Option (Directive × List Char) := do
  let name := text.takeWhile isNameChar
  let rest := text.dropWhile isNameChar
  let (directive, rest) ←
    if !atSpace rest then none
    else match String.ofList name with
      | "YAML" => readVersion rest
      | "TAG" => readTagHandle rest
      | _ => none
  let rest := rest.dropWhile isBlank
  let rest := if rest.head? = some '#' then rest.dropWhile (fun c => !isBreak c) else rest
  match rest with
  | [] => some (directive, [])
  | c :: more => if isBreak c then some (directive, more) else none

end Directive

end StackLexer.Yaml
