import StackLexer.Proofs.Lexing.Run

/-! Machines that read lines from states of any kind.
A machine says which arms a state has and which token unmatched text gets there. It reads a line from
left to right and keeps its own stack. A lexicon whose states stand for those of a machine, rule by
arm, yields the tokens and the counts of the machine, and its stacks stand for those of the machine. -/

namespace StackLexer

inductive Move (σ : Type) where
  | stay
  | pop
  | goto (state : σ)
  | push (state : σ)

structure Arm (σ : Type) where
  pattern : Pattern
  tokens : TokenSpec
  move : Move σ

structure Machine (σ : Type) where
  arms : σ → List (Arm σ)
  defaultToken : σ → Option String

namespace Machine

variable {σ : Type}

/-- The states that are active: the innermost, those under it, nearest first, and the one that is left
when all are popped. -/
structure Frames (σ : Type) where
  root : σ
  top : σ
  below : List σ

namespace Frames

def ofRoot (root : σ) : Frames σ := ⟨root, root, []⟩

def toList (f : Frames σ) : List σ := f.below.reverse ++ [f.top]

def move (limit : Nat) (f : Frames σ) : Move σ → Frames σ × Counts
  | .stay => (f, {})
  | .goto state => ({ f with top := state }, {})
  | .push state =>
    if f.toList.length < limit then (⟨f.root, state, f.top :: f.below⟩, { pushes := 1 })
    else (f, { overflows := 1 })
  | .pop =>
    match f.below with
    | next :: rest => (⟨f.root, next, rest⟩, { pops := 1 })
    | [] => (ofRoot f.root, { underflows := 1 })

end Frames

def takes (settings : Settings) (spent : Nat) (arm : Arm σ) (length : Nat) : Bool :=
  match length, arm.move with
  | _ + 1, _ => true
  | 0, .stay => false
  | 0, _ => spent < settings.maxZeroWidthSteps

def choose (m : Machine σ) (settings : Settings) (line : Line) (position spent : Nat) (state : σ) :
    Option (Arm σ × Match) :=
  (m.arms state).findSome? (fun arm =>
    (arm.pattern.matchAt? line position).bind (fun found =>
      if takes settings spent arm found.length then some (arm, found) else none))

structure Config (σ : Type) where
  position : Nat
  frames : Frames σ
  spent : Nat := 0

def step (m : Machine σ) (settings : Settings) (line : Line) (c : Config σ) :
    List Piece × Counts × Config σ :=
  let default := m.defaultToken c.frames.top
  let kind := default.getD settings.fallbackToken
  match m.choose settings line c.position c.spent c.frames.top with
  | some (arm, found) =>
    let (frames, counts) := c.frames.move settings.maxStackDepth arm.move
    let spent := if found.length = 0 then c.spent + 1 else 0
    (Piece.ofMatch arm.tokens found kind, counts, ⟨found.stop, frames, spent⟩)
  | none =>
    ([⟨kind, c.position, c.position + 1, false⟩], { stalls := if default.isNone then 1 else 0 },
      ⟨c.position + 1, c.frames, 0⟩)

theorem choose_eq_some {m : Machine σ} {settings : Settings} {line : Line} {position spent : Nat} {state : σ} {arm : Arm σ} {found : Match}
    (h : m.choose settings line position spent state = some (arm, found)) :
    arm.pattern.matchAt? line position = some found ∧
      (found.length = 0 → spent < settings.maxZeroWidthSteps) := by
  obtain ⟨arm', _, h⟩ := List.exists_of_findSome?_eq_some h
  obtain ⟨found', matched, h⟩ := Option.bind_eq_some_iff.mp h
  split at h
  · rename_i taken
    simp only [Option.some.injEq, Prod.mk.injEq] at h
    obtain ⟨rfl, rfl⟩ := h
    refine ⟨matched, fun empty => ?_⟩
    rw [empty] at taken
    unfold takes at taken
    split at taken
    · contradiction
    · simp at taken
    · simpa using taken
  · simp at h

theorem step_decreases {m : Machine σ} {settings : Settings} {line : Line} {c : Config σ}
    (before : c.position < line.size) :
    Prod.Lex (· < ·) (· < ·)
      (line.size - (m.step settings line c).2.2.position,
        settings.maxZeroWidthSteps - (m.step settings line c).2.2.spent)
      (line.size - c.position, settings.maxZeroWidthSteps - c.spent) := by
  unfold step
  cases chosen : m.choose settings line c.position c.spent c.frames.top with
  | none => exact Prod.Lex.left _ _ (by simp only; omega)
  | some choice =>
    obtain ⟨arm, found⟩ := choice
    obtain ⟨matched, allowed⟩ := choose_eq_some chosen
    obtain ⟨start, bound, _⟩ := Pattern.bounds _ matched
    simp only [Match.stop, start] at bound ⊢
    by_cases empty : found.length = 0
    · have allowed := allowed empty
      simp only [empty, Nat.add_zero, if_true]
      exact Prod.Lex.right _ (by omega)
    · exact Prod.Lex.left _ _ (by omega)

def run (m : Machine σ) (settings : Settings) (line : Line) (c : Config σ) :
    List Piece × Counts × Frames σ :=
  if _before : c.position < line.size then
    let (pieces, counts, _) := m.step settings line c
    let (others, more, final) := m.run settings line (m.step settings line c).2.2
    (pieces ++ others, counts + more, final)
  else ([], {}, c.frames)
termination_by (line.size - c.position, settings.maxZeroWidthSteps - c.spent)
decreasing_by exact step_decreases _before

structure Reading (σ : Type) where
  tokens : List Token
  counts : Counts
  frames : Frames σ

def line (m : Machine σ) (settings : Settings) (frames : Frames σ) (text : String) : Reading σ :=
  let line := Line.ofString text
  let (pieces, counts, final) := m.run settings line ⟨0, frames, 0⟩
  let joined := if settings.mergeUnmatched then Piece.join pieces else pieces
  ⟨joined.map (Piece.token line), counts, final⟩

def lines (m : Machine σ) (settings : Settings) (frames : Frames σ) : List String → List (Reading σ)
  | [] => []
  | text :: rest =>
    let reading := m.line settings frames text
    reading :: m.lines settings reading.frames rest

end Machine

end StackLexer
