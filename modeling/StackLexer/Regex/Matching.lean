import StackLexer.Regex.Reader

/-! Matching by backtracking.
A match is asked for at one position of a line and tries the alternatives in the order they are
written. What is still to match is a function of the position reached, so an alternative that
fails later is taken back by trying the next one. Positions count characters. -/

namespace StackLexer.Regex

structure Subject where
  chars : Array Char
  asked : Nat

namespace Subject

def charBefore? (s : Subject) (i : Nat) : Option Char :=
  if i = 0 then none else s.chars[i - 1]?

def isWordAt (s : Subject) (i : Nat) : Bool := (s.chars[i]?).any Unicode.isWord

def isWordBefore (s : Subject) (i : Nat) : Bool := (s.charBefore? i).any Unicode.isWord

/-- Whether an anchor holds at a position. A line feed that ends the text begins no line. -/
def holds (s : Subject) (i : Nat) : Anchor → Bool
  | .lineStart => i = 0 || (s.charBefore? i = some '\n' && i < s.chars.size)
  | .lineEnd => s.chars.size ≤ i || s.chars[i]? = some '\n'
  | .textStart => i = 0
  | .textEnd => s.chars.size ≤ i
  | .lastLineEnd => s.chars.size ≤ i || (s.chars[i]? = some '\n' && i + 1 = s.chars.size)
  | .searchStart => i = s.asked
  | .wordBoundary => s.isWordAt i != s.isWordBefore i
  | .notWordBoundary => s.isWordAt i == s.isWordBefore i

def literal? (s : Subject) (i : Nat) : List Char → Option Nat
  | [] => some i
  | c :: rest => if s.chars[i]? = some c then s.literal? (i + 1) rest else none

/-- The end of a text whose folding is `target`, if one stands at a position. `carry` is what
is left of the folding of the character before. -/
def folded? (s : Subject) (i : Nat) (carry : List Char) : (target : List Char) → Option Nat
  | [] => if carry.isEmpty then some i else none
  | c :: rest =>
    match carry with
    | d :: carry => if c = d then s.folded? i carry rest else none
    | [] =>
      match (s.chars[i]?).map Unicode.fold with
      | some (d :: carry) => if c = d then s.folded? (i + 1) carry rest else none
      | _ => none

def text? (s : Subject) (i : Nat) (text : List Char) (caseless : Bool) : Option Nat :=
  if caseless then s.folded? i [] (Unicode.foldText text) else s.literal? i text

end Subject

abbrev Captures := Array (Option (Nat × Nat))

/-- The end of the text of a group that stands again at a position. The groups are tried in order,
and those without a text are passed over. -/
def Subject.captured? (s : Subject) (i : Nat) (captures : Captures) (caseless : Bool)
    (groups : List Nat) : Option Nat :=
  groups.findSome? (fun g =>
    match captures[g]? with
    | some (some (first, last)) => s.text? i (s.chars.extract first last).toList caseless
    | _ => none)

structure Found where
  stop : Nat
  captures : Captures
  deriving DecidableEq, Repr, Inhabited

/-- What is still to match, from a position and the captures so far. -/
abbrev Continuation := Nat → Captures → Option Found

/-- Repeats `body` as often as it goes on, or as seldom when not greedy. A round that takes
nothing of the line is the last. -/
def star (size : Nat) (greedy : Bool) (body : Nat → Captures → Continuation → Option Found)
    (i : Nat) (captures : Captures) (next : Continuation) : Option Found :=
  let more : Unit → Option Found := fun _ =>
    body i captures (fun j captures =>
      if size - j < size - i then star size greedy body j captures next else next j captures)
  if greedy then (more ()).or (next i captures)
  else (next i captures).or (more ())
termination_by size - i

def atMost (greedy : Bool) (body : Nat → Captures → Continuation → Option Found) :
    (count : Nat) → Nat → Captures → Continuation → Option Found
  | 0, i, captures, next => next i captures
  | count + 1, i, captures, next =>
    let more : Unit → Option Found := fun _ =>
      body i captures (fun j captures => atMost greedy body count j captures next)
    if greedy then (more ()).or (next i captures)
    else (next i captures).or (more ())

def exactly (body : Nat → Captures → Continuation → Option Found) :
    (count : Nat) → Nat → Captures → Continuation → Option Found
  | 0, i, captures, next => next i captures
  | count + 1, i, captures, next =>
    body i captures (fun j captures => exactly body count j captures next)

namespace Node

def run (s : Subject) : Node → Nat → Captures → Continuation → Option Found
  | empty, i, captures, next | keep, i, captures, next => next i captures
  | literal text caseless, i, captures, next =>
    match s.text? i text caseless with
    | some j => next j captures
    | none => none
  | one set, i, captures, next =>
    match s.chars[i]? with
    | some c => if set.contains c then next (i + 1) captures else none
    | none => none
  | anchor a, i, captures, next => if s.holds i a then next i captures else none
  | backref groups caseless, i, captures, next =>
    match s.captured? i captures caseless groups with
    | some j => next j captures
    | none => none
  | seq a b, i, captures, next =>
    a.run s i captures (fun j captures => b.run s j captures next)
  | alt a b, i, captures, next => (a.run s i captures next).or (b.run s i captures next)
  | capture index body, i, captures, next =>
    -- Inside a group its text is not known yet.
    body.run s i (captures.setIfInBounds index none) (fun j captures =>
      next j (captures.setIfInBounds index (some (i, j))))
  | atomic body, i, captures, next =>
    match body.run s i captures (fun j captures => some ⟨j, captures⟩) with
    | some found => next found.stop found.captures
    | none => none
  | ahead negated body, i, captures, next =>
    match body.run s i captures (fun j captures => some ⟨j, captures⟩) with
    | some found => if negated then none else next i found.captures
    | none => if negated then next i captures else none
  | behind negated body, i, captures, next =>
    let width := body.width
    let most := (width.most.getD i).min i
    let starts := (List.range (most + 1 - width.least)).map (fun d => i - (width.least + d))
    let endsHere : Continuation := fun j captures => if j = i then some ⟨j, captures⟩ else none
    if negated then
      match starts.findSome? (fun j => body.run s j captures endsHere) with
      | some _ => none
      | none => next i captures
    else if width.isFixed then
      starts.findSome? (fun j => body.run s j captures
        (fun stop captures => if stop = i then next i captures else none))
    else
      match starts.findSome? (fun j => body.run s j captures endsHere) with
      | some found => next i found.captures
      | none => none
  | loop body least most greedy, i, captures, next =>
    exactly (fun i captures next => body.run s i captures next) least i captures
      (fun j captures =>
        match most with
        | none => star s.chars.size greedy (fun i captures next => body.run s i captures next)
            j captures next
        | some most => atMost greedy (fun i captures next => body.run s i captures next)
            (most - least) j captures next)

end Node

namespace Syntax

def matchAt? (syn : Syntax) (chars : Array Char) (i : Nat) : Option Found :=
  syn.root.run ⟨chars, i⟩ i (Array.replicate (syn.groups + 1) none)
    (fun j captures => some ⟨j, captures⟩)

end Syntax

end StackLexer.Regex
