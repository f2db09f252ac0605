import StackLexer.Lexing.Scan
import StackLexer.Text.Lines

/-! A document that is scanned line by line. A session keeps the stack between the lines and counts
what happens. -/

namespace StackLexer

structure Totals where
  lines : Nat := 0
  tokens : Nat := 0
  counts : Counts := {}
  deriving DecidableEq, Repr, Inhabited

def Totals.toJson (t : Totals) : Json :=
  .object [("lines", .nat t.lines), ("tokens", .nat t.tokens), ("stalls", .nat t.counts.stalls),
    ("pushes", .nat t.counts.pushes), ("pops", .nat t.counts.pops),
    ("underflows", .nat t.counts.underflows), ("overflows", .nat t.counts.overflows)]

structure Session where
  tokenizer : Tokenizer
  initial : Stack
  stack : Stack
  totals : Totals := {}
  deriving Inhabited

namespace Session

def withStack (t : Tokenizer) (stack : Stack) : Session :=
  { tokenizer := t, initial := stack, stack }

def new (t : Tokenizer) : Session := withStack t t.initial

def startingAt? (t : Tokenizer) (name : String) : Option Session :=
  (t.initialAt? name).map (withStack t)

def line (s : Session) (text : String) : List Token × Session × List Event :=
  let out := s.tokenizer.line s.stack text
  let totals : Totals :=
    { lines := s.totals.lines + 1
      tokens := s.totals.tokens + out.tokens.length
      counts := s.totals.counts + out.counts }
  let stalled := if out.counts.stalls > 0 then [.lineStalled totals.lines out.counts.stalls] else []
  (out.tokens, { s with stack := out.stack, totals }, out.events ++ stalled)

def lines (s : Session) : List String → List (List Token) × Session × List Event
  | [] => ([], s, [])
  | text :: rest =>
    let (tokens, s, events) := s.line text
    let (others, s, more) := s.lines rest
    (tokens :: others, s, events ++ more)

/-- Scans a text, one list of tokens for each line. Line ends belong to no token. -/
def document (s : Session) (text : String) : List (List Token) × Session × List Event :=
  s.lines (Text.lines text)

/-- Goes back to the first stack and forgets what was counted. -/
def reset (s : Session) : Session := { s with stack := s.initial, totals := {} }

end Session

end StackLexer
