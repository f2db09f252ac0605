import StackLexer.Text.Line
import StackLexer.Text.Quoted

/-! Patterns of rules and the engine that compiles them.
A pattern is matched at one position of a line and never searches forward; lookbehind and anchors
still see the whole line. Which texts are patterns, how many groups they have and what they match is
for the engine to say. -/

namespace StackLexer

structure Match where
  start : Nat
  length : Nat
  groups : List (Option (Nat × Nat))
  deriving DecidableEq, Repr, Inhabited

namespace Match

def stop (m : Match) : Nat := m.start + m.length

def isEmpty (m : Match) : Bool := m.length = 0

theorem start_le_stop (m : Match) : m.start ≤ m.stop := Nat.le_add_right ..

end Match

structure Pattern where
  source : String
  caseInsensitive : Bool
  groupCount : Nat
  /-- The match at exactly one position. -/
  matchAt? : Line → Nat → Option Match
  length_groups {line : Line} {i : Nat} {m : Match} :
    matchAt? line i = some m → m.groups.length = groupCount
  bounds {line : Line} {i : Nat} {m : Match} : matchAt? line i = some m →
    m.start = i ∧ m.stop ≤ line.size ∧
      ∀ first last, some (first, last) ∈ m.groups → first ≤ last ∧ last ≤ line.size

/-- What compiles patterns. A text that is no pattern is refused with a message, and a pattern keeps the
text and the case flag that it was compiled from. -/
class RegexEngine where
  compile (source : String) (caseInsensitive : Bool) : Except String Pattern
  source_of_compile {source : String} {caseInsensitive : Bool} {p : Pattern} :
    compile source caseInsensitive = .ok p →
      p.source = source ∧ p.caseInsensitive = caseInsensitive

namespace Pattern

instance : Inhabited Pattern where
  default := ⟨"", false, 0, fun _ _ => none, by simp, by simp⟩

def compile [RegexEngine] (source : String) (caseInsensitive : Bool) : Except String Pattern :=
  RegexEngine.compile source caseInsensitive

theorem source_of_compile [RegexEngine] {source : String} {caseInsensitive : Bool} {p : Pattern}
    (compiled : compile source caseInsensitive = .ok p) :
    p.source = source ∧ p.caseInsensitive = caseInsensitive :=
  RegexEngine.source_of_compile compiled

def describe (p : Pattern) : String :=
  "Pattern \x7b source: " ++ Text.quoted p.source ++
    ", case_insensitive: " ++ toString p.caseInsensitive ++
    ", group_count: " ++ toString p.groupCount ++ " \x7d"

end Pattern

end StackLexer
