import StackLexer.Regex.CharSet
import StackLexer.Regex.Escape

/-! Reading a bracket such as `[a-z&&[^aeiou]\d]`.
The reader is a machine that spends at least one character a step and keeps one record for each
bracket that is still open, so it ends with the text. -/

namespace StackLexer.Regex

inductive Bracket.Last where
  | nothing
  | code (n : Nat)
  | set
  | rangeFrom (n : Nat)
  | rangeEnd
  deriving DecidableEq, Repr

structure Bracket where
  negated : Bool
  /-- The operands of `&&` that are complete. -/
  earlier : Option CharSet := none
  members : CharSet := .empty
  last : Bracket.Last := .nothing
  deriving DecidableEq, Repr

namespace Bracket

private def flush (b : Bracket) : Bracket :=
  match b.last with
  | .code n => { b with members := .union b.members (.single n) }
  | _ => b

private def operands (b : Bracket) : CharSet :=
  match b.earlier with
  | some set => .inter set b.members
  | none => b.members

def addCode (b : Bracket) (n : Nat) : Except Fault Bracket :=
  match b.last with
  | .rangeFrom first =>
    if n < first then .error .emptyRange
    else .ok { b with members := .union b.members (.range first n), last := .rangeEnd }
  | _ => .ok { b.flush with last := .code n }

def addSet (b : Bracket) (set : CharSet) : Except Fault Bracket :=
  match b.last with
  | .rangeFrom _ => .error .classAtRangeEnd
  | .nothing => .ok { b with members := .union b.members set }
  | _ => .ok { b.flush with members := .union b.flush.members set, last := .set }

/-- A dash is a range operator only after a single character and before another member. -/
def addDash (b : Bracket) (atEnd : Bool) : Except Fault Bracket :=
  match b.last with
  | .code n => if atEnd then b.addCode '-'.toNat else .ok { b with last := .rangeFrom n }
  | .set => if atEnd then b.addCode '-'.toNat else .error .unmatchedRange
  | _ => b.addCode '-'.toNat

def addBracket (b : Bracket) (set : CharSet) : Bracket :=
  { b with members := .union b.members set }

def beforeBracket (b : Bracket) : Bracket := { b.flush with last := .rangeEnd }

def nextOperand (b : Bracket) : Bracket :=
  { b with earlier := some b.flush.operands, members := .empty, last := .nothing }

def close (b : Bracket) (caseless : Bool) : CharSet :=
  let inner := b.flush.operands
  .complementIf b.negated (if caseless then .caseless inner else inner)

inductive Token where
  | close
  | dash (atEnd : Bool)
  | and
  | bracket
  | code (n : Nat)
  | set (s : CharSet)
  deriving DecidableEq, Repr

/-- The set that `\p`, `\P` and a name between braces stand for, after the letter. `none`
when no brace follows and the letter stands for itself. -/
def property? (negated : Bool) (text : List Char) : Except Fault (Option (CharSet × Nat)) :=
  match text with
  | '\x7b' :: rest =>
    let (flip, name) := match rest with
      | '^' :: name => (true, name)
      | _ => (false, rest)
    let written := name.takeWhile (fun c => !"()\x7b|".toList.contains c && c != '\x7d')
    let word := String.ofList written
    match name.drop written.length with
    | '\x7d' :: _ =>
      match Unicode.Property.named? word with
      | some p =>
        .ok (some (.complementIf (negated != flip) (.property p),
          written.length + 2 + (if flip then 1 else 0)))
      | none =>
        if Unicode.Property.isWithoutTable word then .error (.unsupported "some properties")
        else .error (.unknownProperty word)
    | [] => .error .unclosedGroup
    | _ => .error (.unknownProperty word)
  | _ => .ok none

private def classNameEnds : List Char → Bool
  | '\\' :: _ :: rest => classNameEnds rest
  | ':' :: ']' :: _ => true
  | ']' :: _ => false
  | _ :: rest => classNameEnds rest
  | [] => false

private def className? (text : List Char) : Except Fault (Option (CharSet × Nat)) :=
  let (negated, name) := match text with
    | '^' :: name => (true, name)
    | _ => (false, text)
  let known := if name.length < 7 then none
    else Unicode.Property.bracketNames.find? (fun entry => entry.1.toList.isPrefixOf name)
  match known with
  | some (word, p) =>
    match name.drop word.length with
    | ':' :: ']' :: _ =>
      .ok (some (.complementIf negated (.property p),
        word.length + 2 + (if negated then 1 else 0)))
    | _ => .error .unknownClassName
  | none =>
    let skipped := (name.take 21).takeWhile (fun c => c != ':' && c != ']')
    match name.drop skipped.length with
    | ':' :: ']' :: _ => .error .unknownClassName
    | _ => .ok none

def token (text : List Char) : Except Fault (Token × Nat) :=
  match text with
  | [] => .error .unclosedClass
  | ']' :: _ => .ok (.close, 1)
  | '-' :: rest =>
    .ok (.dash (match rest with
      | ']' :: _ => true
      | '&' :: '&' :: _ => true
      | _ => false), 1)
  | '&' :: '&' :: _ => .ok (.and, 2)
  | '[' :: ':' :: rest =>
    if classNameEnds rest then do
      match ← className? rest with
      | some (set, spent) => .ok (.set set, spent + 2)
      | none => .ok (.code '['.toNat, 1)
    else .ok (.bracket, 1)
  | '[' :: _ => .ok (.bracket, 1)
  | '\\' :: rest =>
    match rest with
    | [] => .error .endAtEscape
    | c :: more =>
      match CharSet.shorthand? c with
      | some set => .ok (.set set, 2)
      | none =>
        let byNumber : Except Fault (Token × Nat) := do
          let (n, spent) ← Escape.codePoint rest
          .ok (.code n, spent + 1)
        if c = 'p' ∨ c = 'P' then do
          match ← property? (c = 'P') more with
          | some (set, spent) => .ok (.set set, spent + 2)
          | none => byNumber
        else byNumber
  | c :: _ => .ok (.code c.toNat, 1)

/-- A bracket after its `[`, with the text after what opens it. A bracket that would close at
once holds the closing bracket as a member when another one follows. -/
def opening (text : List Char) : Except Fault (Bracket × Nat) :=
  let (negated, rest) := match text with
    | '^' :: rest => (true, rest)
    | _ => (false, text)
  let skipped := if negated then 1 else 0
  match rest with
  | ']' :: more =>
    if more.contains ']' then .ok ({ negated, last := .code ']'.toNat }, skipped + 1)
    else .error .emptyClass
  | _ => .ok ({ negated }, skipped)

/-- Reads the rest of the bracket `current` and of those it stands in, innermost first. Returns
the outermost set and the text after it. -/
def finish (caseless : Bool) (text : List Char) (current : Bracket) (outer : List Bracket) :
    Except Fault (CharSet × List Char) :=
  match text with
  | [] => .error .unclosedClass
  | c :: rest =>
    match token (c :: rest) with
    | .error fault => .error fault
    | .ok (.close, _) =>
      match outer with
      | [] => .ok (current.close caseless, rest)
      | parent :: others => finish caseless rest (parent.addBracket (current.close false)) others
    | .ok (.bracket, _) =>
      match opening rest with
      | .error fault => .error fault
      | .ok (inner, spent) =>
        finish caseless (rest.drop spent) inner (current.beforeBracket :: outer)
    | .ok (.and, spent) => finish caseless (rest.drop (spent - 1)) current.nextOperand outer
    | .ok (.dash atEnd, _) =>
      match current.addDash atEnd with
      | .error fault => .error fault
      | .ok next => finish caseless rest next outer
    | .ok (.code n, spent) =>
      match current.addCode n with
      | .error fault => .error fault
      | .ok next => finish caseless (rest.drop (spent - 1)) next outer
    | .ok (.set s, spent) =>
      match current.addSet s with
      | .error fault => .error fault
      | .ok next => finish caseless (rest.drop (spent - 1)) next outer
termination_by text.length
decreasing_by all_goals (simp only [List.length_cons, List.length_drop]; omega)

def read (caseless : Bool) (text : List Char) : Except Fault (CharSet × Nat) := do
  let (bracket, spent) ← opening text
  let (set, rest) ← finish caseless (text.drop spent) bracket []
  return (set, text.length - rest.length)

end Bracket

end StackLexer.Regex
