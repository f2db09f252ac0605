import StackLexer.Grammar.Pattern
import StackLexer.Regex.Extent

/-! The engine of this library: patterns are read as trees and matched by backtracking.
Plain groups capture even when the pattern has named ones. -/

namespace StackLexer.Regex.Syntax

def found? (syn : Syntax) (line : Line) (i : Nat) : Option Match :=
  if i ≤ line.size then
    (syn.matchAt? line.chars i).map (fun found =>
      { start := i
        length := found.stop - i
        groups := (List.range syn.groups).map (fun g => (found.captures[g + 1]?).join) })
  else none

theorem length_groups_of_found? {syn : Syntax} {line : Line} {i : Nat} {m : Match}
    (h : syn.found? line i = some m) : m.groups.length = syn.groups := by
  unfold found? at h
  split at h
  · obtain ⟨found, _, rfl⟩ := Option.map_eq_some_iff.1 h
    simp
  · simp at h

theorem bounds_of_found? {syn : Syntax} {line : Line} {i : Nat} {m : Match}
    (h : syn.found? line i = some m) :
    m.start = i ∧ m.stop ≤ line.size ∧
      ∀ first last, some (first, last) ∈ m.groups → first ≤ last ∧ last ≤ line.size := by
  unfold found? at h
  split at h
  · rename_i inside
    obtain ⟨found, matched, rfl⟩ := Option.map_eq_some_iff.mp h
    obtain ⟨le, fits, within⟩ := Regex.matchAt?_bounds inside matched
    refine ⟨rfl, ?_, ?_⟩
    · simp only [Match.stop, Line.size]
      omega
    · intro first last member
      obtain ⟨g, _, text⟩ := List.mem_map.mp member
      exact within (g + 1) first last (Option.join_eq_some_iff.mp text)
  · simp at h

def pattern (syn : Syntax) (source : String) (caseInsensitive : Bool) : Pattern where
  source
  caseInsensitive
  groupCount := syn.groups
  matchAt? := syn.found?
  length_groups := length_groups_of_found?
  bounds := bounds_of_found?

instance : RegexEngine where
  compile source caseInsensitive :=
    match Syntax.read source caseInsensitive with
    | .ok syn => .ok (syn.pattern source caseInsensitive)
    | .error fault => .error fault.message
  source_of_compile {source caseInsensitive p} compiled := by
    split at compiled
    · obtain rfl := Except.ok.inj compiled
      exact ⟨rfl, rfl⟩
    · simp at compiled

end StackLexer.Regex.Syntax
