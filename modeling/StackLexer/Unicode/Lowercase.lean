import StackLexer.Unicode.Folding
import StackLexer.Unicode.Property

/-! Small letters.
Most capital letters have the small letter that they fold to. -/

namespace StackLexer.Unicode

def lower (c : Char) : List Char :=
  let n := c.toNat
  if n < 128 then [c.toLower]
  else if n = 0x130 then ['i', '\u0307']
  else if n = 0x1E9E then ['ß']
  else if 0x13A0 ≤ n ∧ n ≤ 0x13EF then [Char.ofNat (n + 0x97D0)]
  else if 0x13F0 ≤ n ∧ n ≤ 0x13F5 then [Char.ofNat (n + 8)]
  else if Category.of c = .titlecaseLetter ∧ 0x1F88 ≤ n then
    -- Greek vowels with an iota beside them.
    [Char.ofNat (if n < 0x1FB0 then n - 8 else n - 9)]
  else if Category.of c = .titlecaseLetter ∨ Property.uppercase.holds c then [shortFold c]
  else [c]

def isCased (c : Char) : Bool :=
  Property.uppercase.holds c || Property.lowercase.holds c || Category.of c = .titlecaseLetter

def isCaseIgnorable (c : Char) : Bool :=
  match Category.of c with
  | .nonspacingMark | .enclosingMark | .format | .modifierLetter | .modifierSymbol => true
  | _ => "'.:·՟״’‘․‧︓﹒﹕＇．：".toList.contains c

/-- A text in small letters. At the end of a word sigma has a form of its own. `before` holds the
characters before the text, nearest first. -/
def lowerFrom (before : List Char) : List Char → List Char
  | [] => []
  | c :: rest =>
    let inWord (side : List Char) : Bool :=
      ((side.dropWhile isCaseIgnorable).head?).any isCased
    let small := if c = 'Σ' && inWord before && !inWord rest then ['ς'] else lower c
    small ++ lowerFrom (c :: before) rest

def lowerText (s : String) : String := String.ofList (lowerFrom [] s.toList)

end StackLexer.Unicode
