import StackLexer.Unicode.Property
import StackLexer.Unicode.Folding

/-! Sets of characters as a pattern writes them: ranges, named properties and the operations of
a bracket. A set stays a term, and `CharSet.contains` gives its meaning. -/

namespace StackLexer.Regex

open Unicode (Property)

inductive CharSet where
  | empty
  | range (first last : Nat)
  | property (p : Property)
  | union (a b : CharSet)
  | inter (a b : CharSet)
  | complement (a : CharSet)
  | caseless (a : CharSet)
  deriving DecidableEq, Repr, Inhabited

namespace CharSet

def single (n : Nat) : CharSet := range n n

def contains : CharSet → Char → Bool
  | empty, _ => false
  | range first last, c => first ≤ c.toNat && c.toNat ≤ last
  | property p, c => p.holds c
  | union a b, c => a.contains c || b.contains c
  | inter a b, c => a.contains c && b.contains c
  | complement a, c => !a.contains c
  | caseless a, c => (Unicode.caseVariants c).any a.contains

def complementIf (negated : Bool) (a : CharSet) : CharSet := if negated then complement a else a

def newline : CharSet := single 10

def shorthand? (c : Char) : Option CharSet :=
  match c with
  | 'w' => some (property .word)
  | 'd' => some (property (.category .decimalNumber))
  | 's' => some (property .space)
  | 'h' => some (property .hexDigit)
  | 'W' => some (complement (property .word))
  | 'D' => some (complement (property (.category .decimalNumber)))
  | 'S' => some (complement (property .space))
  | 'H' => some (complement (property .hexDigit))
  | _ => none

@[simp] theorem contains_complementIf (negated : Bool) (a : CharSet) (c : Char) :
    (a.complementIf negated).contains c = (a.contains c != negated) := by
  cases negated <;> simp [complementIf, contains]

end CharSet

end StackLexer.Regex
