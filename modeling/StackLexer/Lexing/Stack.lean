import StackLexer.Grammar.Lexicon

/-! The context stack: the states that are active, innermost on top.
It is all that is carried from one line to the next. It always has a top; popping the last frame
puts the root back. -/

namespace StackLexer

structure Stack where
  root : StateId
  top : StateId
  below : List StateId := []
  deriving DecidableEq, Repr, Inhabited

namespace Stack

def ofRoot (root : StateId) : Stack := ⟨root, root, []⟩

def frames (s : Stack) : List StateId := (s.top :: s.below).reverse

def depth (s : Stack) : Nat := s.below.length + 1

inductive Effect where
  | stayed
  | replaced
  | pushed
  | refused (depth : Nat)
  | popped
  | reset
  deriving DecidableEq, Repr, Inhabited

def apply (limit : Nat) (s : Stack) : Transition → Stack × Effect
  | .stay => (s, .stayed)
  | .goto state => ({ s with top := state }, .replaced)
  | .push state =>
    if s.depth < limit then ({ s with top := state, below := s.top :: s.below }, .pushed)
    else (s, .refused s.depth)
  | .pop =>
    match s.below with
    | [] => (ofRoot s.root, .reset)
    | next :: rest => ({ s with top := next, below := rest }, .popped)

@[simp] theorem length_frames (s : Stack) : s.frames.length = s.depth := by
  simp [frames, depth]

@[simp] theorem root_apply (limit : Nat) (s : Stack) (t : Transition) :
    (s.apply limit t).1.root = s.root := by
  unfold apply
  split <;> try rfl
  all_goals split <;> rfl

end Stack

end StackLexer
