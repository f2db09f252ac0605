/-! Sets of code points written as sorted, disjoint ranges.
The tables of this folder are kept as text, `41-5a aa b5`, and read once. Membership is a
binary search, so the order of the ranges matters and their number does not. -/

namespace StackLexer.Unicode

def hexDigit? (c : Char) : Option Nat :=
  if '0' ≤ c ∧ c ≤ '9' then some (c.toNat - '0'.toNat)
  else if 'a' ≤ c ∧ c ≤ 'f' then some (c.toNat - 'a'.toNat + 10)
  else if 'A' ≤ c ∧ c ≤ 'F' then some (c.toNat - 'A'.toNat + 10)
  else none

/-- The last entry of a sorted table whose key is at most `n`, looked for in `[low, high)`.
`best` is the answer when no entry of the interval qualifies. -/
def lastAtMost {α : Type} (table : Array α) (key : α → Nat) (n low high : Nat)
    (best : Option α) : Option α :=
  if low < high then
    let middle := (low + high) / 2
    match table[middle]? with
    | none => best
    | some entry =>
      if key entry ≤ n then lastAtMost table key n (middle + 1) high (some entry)
      else lastAtMost table key n low middle best
  else best
termination_by high - low

structure Ranges where
  bounds : Array (Nat × Nat)

namespace Ranges

def contains (ranges : Ranges) (n : Nat) : Bool :=
  match lastAtMost ranges.bounds Prod.fst n 0 ranges.bounds.size none with
  | some (_, last) => n ≤ last
  | none => false

private structure Reading where
  bounds : Array (Nat × Nat) := #[]
  first : Option Nat := none
  number : Option Nat := none

private def Reading.close (r : Reading) : Reading :=
  match r.number with
  | some last => ⟨r.bounds.push (r.first.getD last, last), none, none⟩
  | none => r

private def Reading.next (r : Reading) (c : Char) : Reading :=
  match hexDigit? c with
  | some d => { r with number := some (r.number.getD 0 * 16 + d) }
  | none => if c = '-' then { r with first := r.number, number := none } else r.close

def ofText (text : String) : Ranges :=
  ⟨(text.toList.foldl Reading.next {}).close.bounds⟩

end Ranges

end StackLexer.Unicode
