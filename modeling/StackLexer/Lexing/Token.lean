import StackLexer.Grammar.Pattern
import StackLexer.Grammar.Rule
import StackLexer.Json.Value

/-! Tokens, and how matches and unmatched characters become tokens.
Before a token has its text it is a `Piece`, a kind with two positions. Matches are cut into pieces
along their groups, and neighbouring pieces of unmatched text can be joined. -/

namespace StackLexer

structure Token where
  kind : String
  value : String
  span : Span
  deriving DecidableEq, Repr, Inhabited

namespace Token

def isEmpty (t : Token) : Bool := t.value.isEmpty

def detokenize (tokens : List Token) : String := String.join (tokens.map Token.value)

def toJson (t : Token) : Json :=
  .object [("kind", .string t.kind), ("value", .string t.value),
    ("span", .object [("start", .nat t.span.start), ("end", .nat t.span.stop)])]

end Token

/-- A kind with the positions it covers. `matched` tells text of a match from text that no rule
matched. -/
structure Piece where
  kind : String
  start : Nat
  stop : Nat
  matched : Bool := true
  deriving DecidableEq, Repr, Inhabited

namespace Piece

def token (line : Line) (p : Piece) : Token :=
  ⟨p.kind, line.text p.start p.stop, line.span p.start p.stop⟩

/-- `n`, or the bound of `[low, high]` nearest to it. -/
def clamp (n low high : Nat) : Nat := if n < low then low else if n > high then high else n

/-- The pieces of the groups of a match that ends at `stop`, from a cursor on. A group that took
no part has an empty piece, text between groups is a gap, and what a group shares with those before
it is left to them. -/
def ofGroups (gap : String) (stop : Nat) (cursor : Nat) :
    List (String × Option (Nat × Nat)) → List Piece
  | [] => if cursor < stop then [⟨gap, cursor, stop, true⟩] else []
  | (kind, none) :: rest => ⟨kind, cursor, cursor, true⟩ :: ofGroups gap stop cursor rest
  | (kind, some (first, last)) :: rest =>
    let start := clamp first cursor stop
    let finish := clamp last start stop
    let pieces := ⟨kind, start, finish, true⟩ :: ofGroups gap stop finish rest
    if start > cursor then ⟨gap, cursor, start, true⟩ :: pieces else pieces

def ofMatch (tokens : TokenSpec) (m : Match) (gap : String) : List Piece :=
  match tokens with
  | .single kind => [⟨kind, m.start, m.stop, true⟩]
  | .groups kinds => ofGroups gap m.stop m.start (kinds.zip m.groups)

def continues (next p : Piece) : Bool :=
  !p.matched && !next.matched && p.kind == next.kind && p.stop = next.start

/-- Joins pieces of unmatched text that follow one another. -/
def join : List Piece → List Piece
  | [] => []
  | p :: rest =>
    match join rest with
    | [] => [p]
    | next :: more =>
      if next.continues p then { p with stop := next.stop } :: more else p :: next :: more

end Piece

end StackLexer
