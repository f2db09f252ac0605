import StackLexer.Lexing.Event
import StackLexer.Lexing.Stack
import StackLexer.Lexing.Token
import StackLexer.Settings.Basic

/-! Scanning a line.
At each position the rules of the top state are tried in order and the first match counts; where
none matches, one character is taken as the state's default token or as the fallback token. A scan
is first the list of its steps. Tokens, counters and events are read off the steps. -/

namespace StackLexer

inductive Step where
  /-- A rule matched; `gap` is the kind of text outside the groups. -/
  | matched (rule : Lexicon.Rule) (found : Match) (gap : String) (effect : Stack.Effect)
  /-- No rule matched the character at a position. It is taken as a default token, or it stalls
  in a state that has none. -/
  | unmatched (position : Nat) (kind : String) (stalled : Option StateId)
  deriving Inhabited

structure Counts where
  stalls : Nat := 0
  pushes : Nat := 0
  pops : Nat := 0
  underflows : Nat := 0
  overflows : Nat := 0
  deriving DecidableEq, Repr, Inhabited

namespace Counts

def add (a b : Counts) : Counts :=
  ⟨a.stalls + b.stalls, a.pushes + b.pushes, a.pops + b.pops, a.underflows + b.underflows,
    a.overflows + b.overflows⟩

instance : Add Counts := ⟨add⟩

def ofEffect : Stack.Effect → Counts
  | .stayed | .replaced => {}
  | .pushed => { pushes := 1 }
  | .refused _ => { overflows := 1 }
  | .popped => { pops := 1 }
  | .reset => { underflows := 1 }

end Counts

namespace Step

def pieces : Step → List Piece
  | matched rule found gap _ => Piece.ofMatch rule.tokens found gap
  | unmatched position kind _ => [⟨kind, position, position + 1, false⟩]

def counts : Step → Counts
  | matched _ _ _ effect => .ofEffect effect
  | unmatched _ _ stalled => if stalled.isSome then { stalls := 1 } else {}

def event? (line : Line) (limit : Nat) : Step → Option Event
  | matched _ _ _ (.refused depth) => some (.pushRefused depth limit)
  | unmatched position _ (some state) => some (.stalled (line.offset position) state.index)
  | _ => none

end Step

namespace Lexicon

/-- The first rule of a state that matches at a position, with its match. An empty match counts
only if the rule has a transition and empty matches are still taken. -/
def State.firstMatch? (state : State) (line : Line) (i : Nat) (takeEmpty : Bool) :
    Option (Rule × Match) :=
  state.rules.toList.findSome? (fun rule =>
    match rule.pattern.matchAt? line i with
    | some m => if m.isEmpty && (rule.transition = .stay || !takeEmpty) then none else some (rule, m)
    | none => none)

theorem State.takeEmpty_of_firstMatch? {state : State} {line : Line} {i : Nat} {takeEmpty : Bool}
    {found : Rule × Match} (h : state.firstMatch? line i takeEmpty = some found)
    (empty : found.2.isEmpty = true) : takeEmpty = true := by
  obtain ⟨rule, _, h⟩ := List.exists_of_findSome?_eq_some h
  split at h
  · split at h
    · simp at h
    · rename_i fails
      simp only [Option.some.injEq] at h
      subst h
      simp_all
  · simp at h

end Lexicon

/-- A lexicon with the settings to scan under. It holds nothing of a document. -/
structure Tokenizer where
  lexicon : Lexicon
  settings : Settings := {}
  deriving Inhabited

namespace Tokenizer

def initial (t : Tokenizer) : Stack := .ofRoot t.lexicon.start

def initialAt? (t : Tokenizer) (name : String) : Option Stack :=
  (t.lexicon.stateId? name).map .ofRoot

/-- The steps from a position to the end of the line, and the stack they leave. `spent` counts
the empty matches taken at the position so far. -/
def scanFrom (t : Tokenizer) (line : Line) (i : Nat) (stack : Stack) (spent : Nat) :
    List Step × Stack :=
  if i < line.size then
    let state := t.lexicon.state stack.top
    match _found : state.firstMatch? line i (spent < t.settings.maxZeroWidthSteps) with
    | some (rule, m) =>
      let (next, effect) := stack.apply t.settings.maxStackDepth rule.transition
      let step := Step.matched rule m (state.defaultToken.getD t.settings.fallbackToken) effect
      let (steps, final) :=
        if _empty : m.length = 0 then t.scanFrom line i next (spent + 1)
        else t.scanFrom line (i + m.length) next 0
      (step :: steps, final)
    | none =>
      let step := match state.defaultToken with
        | some kind => Step.unmatched i kind none
        | none => Step.unmatched i t.settings.fallbackToken (some stack.top)
      let (steps, final) := t.scanFrom line (i + 1) stack 0
      (step :: steps, final)
  else ([], stack)
termination_by (line.size - i, t.settings.maxZeroWidthSteps - spent)
decreasing_by
  · have := Lexicon.State.takeEmpty_of_firstMatch? _found (by simp [Match.isEmpty, _empty])
    simp only [decide_eq_true_eq] at this
    exact Prod.Lex.right _ (by omega)
  · exact Prod.Lex.left _ _ (by omega)
  · exact Prod.Lex.left _ _ (by omega)

end Tokenizer

structure Scan where
  line : Line
  steps : List Step
  stack : Stack

namespace Scan

def tokens (scan : Scan) (mergeUnmatched : Bool) : List Token :=
  let pieces := scan.steps.flatMap Step.pieces
  (if mergeUnmatched then Piece.join pieces else pieces).map (Piece.token scan.line)

def counts (scan : Scan) : Counts :=
  scan.steps.foldl (fun sum step => sum + step.counts) {}

def events (scan : Scan) (limit : Nat) : List Event :=
  scan.steps.filterMap (Step.event? scan.line limit)

end Scan

structure LineTokens where
  tokens : List Token
  stack : Stack
  counts : Counts
  events : List Event
  deriving DecidableEq, Repr, Inhabited

namespace Tokenizer

def scan (t : Tokenizer) (stack : Stack) (line : Line) : Scan :=
  let (steps, final) := t.scanFrom line 0 stack 0
  ⟨line, steps, final⟩

def line (t : Tokenizer) (stack : Stack) (text : String) : LineTokens :=
  let scan := t.scan stack (.ofString text)
  { tokens := scan.tokens t.settings.mergeUnmatched
    stack := scan.stack
    counts := scan.counts
    events := scan.events t.settings.maxStackDepth }

end Tokenizer

end StackLexer
