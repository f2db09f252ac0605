import StackLexer.Regex.CharSet

/-! The abstract syntax of patterns, with the counts and widths that are read off it. -/

namespace StackLexer.Regex

inductive Anchor where
  | lineStart
  | lineEnd
  | textStart
  | textEnd
  | lastLineEnd
  | searchStart
  | wordBoundary
  | notWordBoundary
  deriving DecidableEq, Repr, Inhabited

inductive Node where
  | empty
  | literal (text : List Char) (caseless : Bool)
  | one (set : CharSet)
  | anchor (a : Anchor)
  /-- Moves the reported start of the match; the length of the match is not affected. -/
  | keep
  | backref (groups : List Nat) (caseless : Bool)
  | seq (a b : Node)
  | alt (a b : Node)
  | capture (index : Nat) (body : Node)
  | atomic (body : Node)
  | ahead (negated : Bool) (body : Node)
  | behind (negated : Bool) (body : Node)
  | loop (body : Node) (least : Nat) (most : Option Nat) (greedy : Bool)
  deriving DecidableEq, Repr, Inhabited

namespace Node

structure Width where
  least : Nat
  most : Option Nat
  deriving DecidableEq, Repr

namespace Width

def exactly (n : Nat) : Width := ⟨n, some n⟩

def add (a b : Width) : Width :=
  ⟨a.least + b.least, do return (← a.most) + (← b.most)⟩

def join (a b : Width) : Width :=
  ⟨min a.least b.least, do return max (← a.most) (← b.most)⟩

def times (a : Width) (least : Nat) (most : Option Nat) : Width :=
  ⟨a.least * least,
    if a.most = some 0 then some 0 else do return (← a.most) * (← most)⟩

def isFixed (a : Width) : Bool := a.most = some a.least

end Width

/-- The width of a node. Up to three characters fold to one, so a caseless literal may match
fewer characters than it has. -/
def width : Node → Width
  | empty | anchor _ | keep | ahead .. | behind .. => .exactly 0
  | literal text false => .exactly text.length
  | literal text true =>
    let folded := Unicode.foldText text
    ⟨(folded.length + 2) / 3, some folded.length⟩
  | one _ => .exactly 1
  | backref .. => ⟨0, none⟩
  | seq a b => a.width.add b.width
  | alt a b => a.width.join b.width
  | capture _ body | atomic body => body.width
  | loop body least most _ => body.width.times least most

/-- Whether the node may stand inside a lookbehind: lookaheads may not, nor may ends of the
text, and a negated lookbehind has no capturing groups. -/
def allowedBehind (negated : Bool) : Node → Bool
  | ahead .. | anchor .textEnd | anchor .lastLineEnd => false
  | empty | literal .. | one _ | anchor _ | keep | backref .. => true
  | seq a b | alt a b => a.allowedBehind negated && b.allowedBehind negated
  | capture _ body => !negated && body.allowedBehind negated
  | atomic body | behind _ body | loop body .. => body.allowedBehind negated

/-- Whether a repeat operator may not follow the node: conditions on a position cannot be
repeated, nor can a choice that offers one. -/
def unrepeatable : Node → Bool
  | anchor _ | keep | ahead .. | behind .. => true
  | seq a b => a.unrepeatable && b.unrepeatable
  | alt a b => a.unrepeatable || b.unrepeatable
  | empty | literal .. | one _ | backref .. | capture .. | atomic _ | loop .. => false

def before : Node → Node → Node
  | a, empty => a
  | empty, b => b
  | literal s f, literal t g =>
    if f = g then literal (s ++ t) f else seq (literal s f) (literal t g)
  | literal s f, seq (literal t g) b =>
    if f = g then seq (literal (s ++ t) f) b else seq (literal s f) (seq (literal t g) b)
  | a, b => seq a b

def sequence (nodes : List Node) : Node := nodes.foldr before empty

def choice : List Node → Node
  | [] => empty
  | [a] => a
  | a :: rest => alt a (choice rest)

end Node

end StackLexer.Regex
