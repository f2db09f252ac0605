import StackLexer.Regex.Node
import StackLexer.Regex.Bracket

/-! Reading a pattern.
The reader is a machine that spends at least one character a step. It keeps one frame for each
group that is still open; `(?i)` without a colon opens a frame that its surroundings close. -/

namespace StackLexer.Regex

structure Switches where
  caseless : Bool := false
  dotAll : Bool := false
  extended : Bool := false
  deriving DecidableEq, Repr, Inhabited

inductive GroupKind where
  | plain
  | switched
  | capture (index : Nat)
  | atomic
  | ahead (negated : Bool)
  | behind (negated : Bool)
  deriving DecidableEq, Repr, Inhabited

def GroupKind.wrap : GroupKind → Node → Node
  | plain, body => body
  -- One round of a loop, which can be repeated whatever it holds.
  | switched, body => .loop body 1 (some 1) true
  | capture index, body => .capture index body
  | atomic, body => .atomic body
  | ahead negated, body => .ahead negated body
  | behind negated, body => .behind negated body

/-- An open group: its kind, the switches in force around it, whether its surroundings close it,
the alternatives that are complete and the parts of the current one, latest first. -/
structure Frame where
  kind : GroupKind := .plain
  outside : Switches
  implicit : Bool := false
  alternatives : List Node := []
  parts : List Node := []
  deriving DecidableEq, Repr, Inhabited

namespace Frame

def add (f : Frame) (part : Node) : Frame := { f with parts := part :: f.parts }

def branch (f : Frame) : Frame :=
  { f with alternatives := .sequence f.parts.reverse :: f.alternatives, parts := [] }

def close (f : Frame) : Node := f.kind.wrap (.choice f.branch.alternatives.reverse)

end Frame

structure Repeat where
  least : Nat
  most : Option Nat
  greedy : Bool := true
  possessive : Bool := false
  deriving DecidableEq, Repr, Inhabited

def Repeat.apply (r : Repeat) (body : Node) : Node :=
  let loop := Node.loop body r.least r.most r.greedy
  if r.possessive then .atomic loop else loop

inductive GroupRef where
  | name (name : String)
  | number (n : Nat)
  | relative (n : Int)
  deriving DecidableEq, Repr, Inhabited

/-- The reader's memory: the groups so far, named ones with their names, the groups that are called, each
with its text, and the frames. -/
structure Reader where
  switches : Switches
  groups : Nat := 0
  names : List (String × Nat) := []
  calls : List (GroupRef × String) := []
  current : Frame
  outer : List Frame := []
  deriving DecidableEq, Repr, Inhabited

namespace Reader

def add (r : Reader) (part : Node) : Reader := { r with current := r.current.add part }

def openGroup (r : Reader) (kind : GroupKind) (switches : Switches) (implicit : Bool) : Reader :=
  { r with
    switches := switches
    current := { kind, outside := r.switches, implicit }
    outer := r.current :: r.outer }

/-- Closes the frames that `(?i)` opened, down to the group around them. -/
def closeImplicit (current : Frame) (switches : Switches) :
    List Frame → Frame × Switches × List Frame
  | [] => (current, switches, [])
  | parent :: outer =>
    if current.implicit then closeImplicit (parent.add current.close) current.outside outer
    else (current, switches, parent :: outer)

def closeGroup (r : Reader) : Except Fault Reader :=
  match closeImplicit r.current r.switches r.outer with
  | (_, _, []) => .error .unopenedGroup
  | (current, _, parent :: outer) =>
    .ok { r with
      switches := current.outside, current := parent.add current.close, outer := outer }

def finish (r : Reader) : Except Fault Node :=
  match closeImplicit r.current r.switches r.outer with
  | (current, _, []) => .ok current.close
  | _ => .error .unclosedGroup

def repeatLast (r : Reader) (times : Repeat) : Except Fault Reader :=
  match r.current.parts with
  | [] => .error .nothingToRepeat
  | part :: parts =>
    if part.unrepeatable then .error .unrepeatable
    else .ok { r with current := { r.current with parts := times.apply part :: parts } }

def addCode (r : Reader) (n : Nat) : Reader :=
  r.add (if n.isValidChar then .literal [Char.ofNat n] r.switches.caseless
    else .one (.single n))

end Reader

private def suffix (possessiveToo : Bool) (times : Repeat) (rest : List Char) : Repeat × Nat :=
  match rest with
  | '?' :: _ => if times.possessive then (times, 0) else ({ times with greedy := false }, 1)
  | '+' :: _ =>
    if possessiveToo && !times.possessive then ({ times with possessive := true }, 1)
    else (times, 0)
  | _ => (times, 0)

def repeatLimit : Nat := 100000

/-- The repeat count between braces, after the opening one. `none` when the text is not one and
the brace stands for itself. Bounds in the wrong order are exchanged, and no way back is kept. -/
def braceRepeat? (text : List Char) : Except Fault (Option (Repeat × Nat)) :=
  let low := Escape.digits Escape.decimalDigit? text.length text
  let least := Escape.value 10 low
  if least > repeatLimit then .error .repeatTooBig
  else
    let rest := text.drop low.length
    match rest with
    | '\x7d' :: _ =>
      if low.isEmpty then .ok none
      else .ok (some ({ least, most := some least }, low.length + 1))
    | ',' :: rest =>
      let high := Escape.digits Escape.decimalDigit? rest.length rest
      let most := Escape.value 10 high
      if most > repeatLimit then .error .repeatTooBig
      else if low.isEmpty && high.isEmpty then .ok none
      else match rest.drop high.length with
        | '\x7d' :: rest =>
          let times : Repeat :=
            if high.isEmpty then { least, most := none }
            else if most < least then { least := most, most := some least, possessive := true }
            else { least, most := some most }
          let (times, more) := suffix false times rest
          .ok (some (times, low.length + 1 + high.length + 1 + more))
        | _ => .ok none
    | _ => .ok none

/-- A group name up to the character that ends it, with the number of characters spent.
Numbers and signed numbers are names only where a group is referred to. -/
def groupName (ending : Char) (reference : Bool) (text : List Char) :
    Except Fault (GroupRef × Nat) :=
  match text with
  | [] => .error .emptyGroupName
  | first :: _ =>
    let name := text.takeWhile (fun c => c != ending && c != ')')
    let word := String.ofList name
    if first = ending then .error .emptyGroupName
    else
      let signed := first = '-' ∨ first = '+'
      let number := if signed then name.drop 1 else name
      let allDigits := number.all (fun c => (Escape.decimalDigit? c).isSome)
      let count := Escape.value 10 (number.filterMap Escape.decimalDigit?)
      let numeric := signed ∨ (Escape.decimalDigit? first).isSome
      if numeric ∧ !reference then .error (.badGroupName word)
      else if !numeric ∧ !(Unicode.isWord first) then .error (.badCharInGroupName word)
      else match text.drop name.length with
        | c :: _ =>
          if c != ending then .error (.badGroupName word)
          else if numeric then
            if number.isEmpty ∨ !allDigits ∨ (signed ∧ count = 0) then .error (.badGroupName word)
            else .ok (if first = '-' then .relative (-count) else if first = '+' then .relative count
              else .number count, name.length + 1)
          else if name.all Unicode.isWord then .ok (.name word, name.length + 1)
          else .error (.badCharInGroupName word)
        | [] => .error (.badGroupName word)

def otherSwitches : List Char := "WDSPCIL".toList

/-- The switches before a colon or a closing parenthesis. The flag says whether a colon ends
them, and `others` whether some of them have no effect here. -/
def readSwitches (switches : Switches) (off others : Bool) (spent : Nat) :
    List Char → Except Fault (Switches × Bool × Nat)
  | [] => .error .endInGroup
  | ':' :: _ =>
    if others then .error (.unsupported "these options") else .ok (switches, true, spent + 1)
  | ')' :: _ =>
    if others then .error (.unsupported "these options") else .ok (switches, false, spent + 1)
  | '-' :: rest => readSwitches switches true others (spent + 1) rest
  | 'i' :: rest => readSwitches { switches with caseless := !off } off others (spent + 1) rest
  | 'm' :: rest => readSwitches { switches with dotAll := !off } off others (spent + 1) rest
  | 'x' :: rest => readSwitches { switches with extended := !off } off others (spent + 1) rest
  | 'y' :: '\x7b' :: 'g' :: '\x7d' :: rest | 'y' :: '\x7b' :: 'w' :: '\x7d' :: rest =>
    readSwitches switches off true (spent + 4) rest
  | c :: rest =>
    if otherSwitches.contains c then readSwitches switches off true (spent + 1) rest
    else .error .unknownGroupOption

def calloutNames : List String :=
  ["FAIL", "MISMATCH", "ERROR", "MAX", "COUNT", "TOTAL_COUNT", "CMP"]

def hasLevel (name : List Char) : Bool :=
  let level := name.reverse.takeWhile (fun c => (Escape.decimalDigit? c).isSome)
  let before := name.reverse.drop level.length
  !level.isEmpty && 2 ≤ before.length && before.head?.any (fun c => c = '+' || c = '-')

def commentLength : List Char → Except Fault Nat
  | [] => .error .endInGroup
  | ')' :: _ => .ok 1
  | '\\' :: _ :: rest => (commentLength rest).map (· + 2)
  | _ :: rest => (commentLength rest).map (· + 1)

namespace Reader

def group (r : Reader) (text : List Char) : Except Fault (Reader × Nat) :=
  let opened (kind : GroupKind) (spent : Nat) : Except Fault (Reader × Nat) :=
    .ok (r.openGroup kind r.switches false, spent)
  match text with
  | '*' :: rest =>
    let name := rest.takeWhile (fun c => c.isAlpha || c = '_')
    if calloutNames.contains (String.ofList name) then .error (.unsupported "callouts")
    else .error .undefinedCallout
  | '?' :: rest =>
    match rest with
    | [] => .error .endInGroup
    | '#' :: comment => return (r, (← commentLength comment) + 2)
    | ':' :: _ => opened .plain 2
    | '=' :: _ => opened (.ahead false) 2
    | '!' :: _ => opened (.ahead true) 2
    | '>' :: _ => opened .atomic 2
    | '<' :: [] => .error .unclosedGroup
    | '<' :: '=' :: _ => opened (.behind false) 3
    | '<' :: '!' :: _ => opened (.behind true) 3
    | '~' :: _ => .error (.unsupported "absent groups")
    | '(' :: _ => .error (.unsupported "conditional groups")
    | '\x7b' :: _ => .error (.unsupported "callouts")
    | c :: more =>
      if c = '<' ∨ c = '\'' then do
        match ← groupName (if c = '<' then '>' else c) false more with
        | (.name name, spent) =>
          let index := r.groups + 1
          .ok (({ r with groups := index, names := (name, index) :: r.names }).openGroup
            (.capture index) r.switches false, spent + 2)
        | _ => .error .emptyGroupName
      else if "-imxy".toList.contains c ∨ otherSwitches.contains c then do
        let (switches, colon, spent) ← readSwitches r.switches false false 0 rest
        .ok (r.openGroup .switched switches (!colon), spent + 1)
      else .error .unknownGroupOption
  | _ =>
    let index := r.groups + 1
    .ok (({ r with groups := index }).openGroup (.capture index) r.switches false, 0)

def referred (r : Reader) : GroupRef → Except Fault (List Nat)
  | .number n => if n = 0 then .error .badBackref else .ok [n]
  | .relative n =>
    let index : Int := if n > 0 then r.groups + n else r.groups + 1 + n
    if index ≤ 0 then .error .badBackref else .ok [index.toNat]
  | .name name =>
    match (r.names.filter (fun entry => entry.1 == name)).map Prod.snd with
    | [] => .error (.undefinedName name)
    | groups => .ok groups

def escape (r : Reader) (text : List Char) : Except Fault (Reader × Nat) :=
  let anchored (a : Anchor) : Except Fault (Reader × Nat) := .ok (r.add (.anchor a), 1)
  let byNumber : Except Fault (Reader × Nat) := do
    let (n, spent) ← Escape.codePoint text
    .ok (r.addCode n, spent)
  match text with
  | [] => .error .endAtEscape
  | 'A' :: _ => anchored .textStart
  | 'Z' :: _ => anchored .lastLineEnd
  | 'z' :: _ => anchored .textEnd
  | 'G' :: _ => anchored .searchStart
  | 'b' :: _ => anchored .wordBoundary
  | 'B' :: _ => anchored .notWordBoundary
  | 'K' :: _ => .ok (r.add .keep, 1)
  | 'N' :: _ => .ok (r.add (.one (.complement .newline)), 1)
  | 'O' :: _ => .ok (r.add (.one (.property .any)), 1)
  | 'R' :: _ =>
    let line : CharSet := .union (.range 10 13) (.union (.single 0x85) (.range 0x2028 0x2029))
    .ok (r.add (.atomic (.alt (.literal ['\r', '\n'] false) (.one line))), 1)
  | 'X' :: _ | 'y' :: _ | 'Y' :: _ => .error (.unsupported "text segments")
  | 'k' :: c :: rest =>
    if c = '<' ∨ c = '\'' then do
      let ending := if c = '<' then '>' else c
      if hasLevel (rest.takeWhile (· != ending)) then .error (.unsupported "references to a level")
      let (ref, spent) ← groupName ending true rest
      .ok (r.add (.backref (← r.referred ref) r.switches.caseless), spent + 2)
    else byNumber
  | 'g' :: c :: rest =>
    if c = '<' ∨ c = '\'' then do
      let (ref, spent) ← groupName (if c = '<' then '>' else c) true rest
      let called := (ref, String.ofList (rest.take (spent - 1)))
      .ok ({ r with calls := called :: r.calls }.add .empty, spent + 2)
    else byNumber
  | c :: rest =>
    match CharSet.shorthand? c with
    | some set => .ok (r.add (.one set), 1)
    | none =>
      if c = 'p' ∨ c = 'P' then do
        match ← Bracket.property? (c = 'P') rest with
        | some (set, spent) => .ok (r.add (.one set), spent + 1)
        | none => byNumber
      else if '1' ≤ c ∧ c ≤ '9' then
        let found := Escape.digits Escape.decimalDigit? text.length text
        let n := Escape.value 10 found
        if n ≤ 9 ∨ n ≤ r.groups then
          .ok (r.add (.backref [n] r.switches.caseless), found.length)
        else byNumber
      else byNumber

/-- One step: the reader after the next part of the pattern and the number of characters that
the part spends after its first. -/
def step (r : Reader) (c : Char) (rest : List Char) : Except Fault (Reader × Nat) :=
  let repeated (least : Nat) (most : Option Nat) : Except Fault (Reader × Nat) := do
    let (times, spent) := suffix true { least, most } rest
    .ok (← r.repeatLast times, spent)
  match c with
  | '\\' => r.escape rest
  | '(' => r.group rest
  | ')' => do .ok (← r.closeGroup, 0)
  | '|' => .ok ({ r with current := r.current.branch }, 0)
  | '*' => repeated 0 none
  | '+' => repeated 1 none
  | '?' => repeated 0 (some 1)
  | '.' =>
    .ok (r.add (.one (if r.switches.dotAll then .property .any else .complement .newline)), 0)
  | '^' => .ok (r.add (.anchor .lineStart), 0)
  | '$' => .ok (r.add (.anchor .lineEnd), 0)
  | '\x7b' => do
    match ← braceRepeat? rest with
    | some (times, spent) => .ok (← r.repeatLast times, spent)
    | none => .ok (r.addCode c.toNat, 0)
  | _ =>
    if r.switches.extended && " \t\n\r\x0c".toList.contains c then .ok (r, 0)
    else if r.switches.extended && c = '#' then
      .ok (r, (rest.takeWhile (· != '\n')).length + 1)
    else .ok (r.addCode c.toNat, 0)

def run (r : Reader) (text : List Char) : Except Fault Reader :=
  match text with
  | [] => .ok r
  | '[' :: rest =>
    match Bracket.read r.switches.caseless rest with
    | .error fault => .error fault
    | .ok (set, spent) => (r.add (.one set)).run (rest.drop spent)
  | c :: rest =>
    match r.step c rest with
    | .error fault => .error fault
    | .ok (next, spent) => next.run (rest.drop spent)
termination_by text.length
decreasing_by all_goals (simp only [List.length_cons, List.length_drop]; omega)

end Reader

structure Syntax where
  root : Node
  groups : Nat
  deriving DecidableEq, Repr, Inhabited

namespace Node

/-- The first reference or lookbehind, in the order of the pattern, that no match can honour. -/
def fault? (groups : Nat) : Node → Option Fault
  | empty | literal .. | one _ | anchor _ | keep => none
  | backref targets _ => if targets.any (· > groups) then some .badBackref else none
  | seq a b | alt a b => a.fault? groups <|> b.fault? groups
  | capture _ body | atomic body | ahead _ body | loop body .. => body.fault? groups
  | behind negated body =>
    if body.allowedBehind negated then body.fault? groups else some .badLookbehind

end Node

/-- Groups are not called here, but a group that is not there is missed all the same. -/
def Reader.callFault? (r : Reader) : Option Fault :=
  let known : GroupRef → Bool
    | .name name => (r.names.lookup name).isSome
    | .number n => n ≤ r.groups
    | .relative _ => true
  match r.calls.reverse.find? (fun call => !known call.1) with
  | some (.name name, _) => some (.undefinedName name)
  | some (_, text) => some (.undefinedGroup text)
  | none => if r.calls.isEmpty then none else some (.unsupported "calls of groups")

def Syntax.read (text : String) (caseless : Bool) : Except Fault Syntax := do
  let switches : Switches := { caseless }
  let reader ← Reader.run { switches, current := { outside := switches } } text.toList
  let root ← reader.finish
  match root.fault? reader.groups <|> reader.callFault? with
  | some fault => .error fault
  | none => .ok ⟨root, reader.groups⟩

end StackLexer.Regex
