import StackLexer.Lexing.Session
import StackLexer.Proofs.Lexing.Accounting
import StackLexer.Proofs.Lexing.StackSafety

/-! What a session has become.
A session that was asked for lines, documents and resets in any order is what the lines since the last
reset make of its first stack. Its totals are sums over these lines, and its depth is balanced by what
they push and pop. Nothing from before a reset can be seen after it. -/

namespace StackLexer

namespace Session

inductive Call where
  | line (text : String)
  | document (text : String)
  | reset

def call (s : Session) : Call → List (List Token) × Session × List Event
  | .line text =>
    let (tokens, s, events) := s.line text
    ([tokens], s, events)
  | .document text => s.document text
  | .reset => ([], s.reset, [])

def calls (s : Session) : List Call → List (List (List Token) × List Event) × Session
  | [] => ([], s)
  | c :: rest =>
    let (tokens, s, events) := s.call c
    let (answers, s) := s.calls rest
    ((tokens, events) :: answers, s)

def Call.since (texts : List String) : Call → List String
  | .line text => texts ++ [text]
  | .document text => texts ++ Text.lines text
  | .reset => []

def sinceReset (calls : List Call) : List String := calls.foldl Call.since []

inductive Begun (t : Tokenizer) : Stack → Session → Prop
  | new : Begun t t.initial (.new t)
  | named {name : String} {initial : Stack} {s : Session} (stack : t.initialAt? name = some initial)
      (created : startingAt? t name = some s) : Begun t initial s

end Session

def Totals.over (outs : List LineTokens) : Totals where
  lines := outs.length
  tokens := (outs.map (fun out => out.tokens.length)).sum
  counts :=
    { stalls := (outs.map (fun out => out.counts.stalls)).sum
      pushes := (outs.map (fun out => out.counts.pushes)).sum
      pops := (outs.map (fun out => out.counts.pops)).sum
      underflows := (outs.map (fun out => out.counts.underflows)).sum
      overflows := (outs.map (fun out => out.counts.overflows)).sum }

namespace Tokenizer

theorem length_lines (t : Tokenizer) (stack : Stack) (texts : List String) :
    (t.lines stack texts).length = texts.length := by
  induction texts generalizing stack with
  | nil => rfl
  | cons text rest ih => exact congrArg Nat.succ (ih _)

theorem stackAfter_concat (t : Tokenizer) (stack : Stack) (texts : List String) (text : String) :
    t.stackAfter stack (texts ++ [text]) = (t.line (t.stackAfter stack texts) text).stack :=
  List.foldl_concat _ _ _ _

theorem lines_concat (t : Tokenizer) (stack : Stack) (texts : List String) (text : String) :
    t.lines stack (texts ++ [text]) =
      t.lines stack texts ++ [t.line (t.stackAfter stack texts) text] := by
  induction texts generalizing stack with
  | nil => rfl
  | cons first rest ih => exact congrArg (_ :: ·) (ih _)

theorem depth_line (t : Tokenizer) (stack : Stack) (text : String) :
    (t.line stack text).stack.depth + (t.line stack text).counts.pops =
      stack.depth + (t.line stack text).counts.pushes := by
  have balance := t.depth_last (.ofString text) ⟨0, stack, 0⟩
  rwa [← counts_line, ← stack_scan] at balance

theorem depth_stackAfter (t : Tokenizer) (stack : Stack) (texts : List String) :
    (t.stackAfter stack texts).depth + (Totals.over (t.lines stack texts)).counts.pops =
      stack.depth + (Totals.over (t.lines stack texts)).counts.pushes := by
  induction texts generalizing stack with
  | nil => rfl
  | cons text rest ih =>
    have first := t.depth_line stack text
    have others := ih (t.line stack text).stack
    simp only [Totals.over, lines, stackAfter, List.map_cons, List.sum_cons, List.foldl_cons]
      at others ⊢
    omega

end Tokenizer

theorem Totals.over_concat (outs : List LineTokens) (out : LineTokens) :
    Totals.over (outs ++ [out]) =
      { lines := (Totals.over outs).lines + 1
        tokens := (Totals.over outs).tokens + out.tokens.length
        counts := (Totals.over outs).counts + out.counts } := by
  simp [Totals.over, Counts.add_eq]

namespace Session

/-- A session on its way from a first stack has scanned some lines since it was there. -/
structure After (t : Tokenizer) (initial : Stack) (texts : List String) (s : Session) : Prop where
  tokenizer : s.tokenizer = t
  first : s.initial = initial
  stack : s.stack = t.stackAfter initial texts
  totals : s.totals = .over (t.lines initial texts)

variable {t : Tokenizer} {initial : Stack} {texts : List String} {s : Session}

theorem Begun.after (begun : Begun t initial s) : After t initial [] s := by
  cases begun with
  | new => exact ⟨rfl, rfl, rfl, rfl⟩
  | named stack created =>
    rw [startingAt?, stack] at created
    obtain rfl := Option.some.inj created
    exact ⟨rfl, rfl, rfl, rfl⟩

theorem Begun.depth (begun : Begun t initial s) : initial.depth = 1 := by
  cases begun with
  | new => rfl
  | named stack created =>
    obtain ⟨root, _, rfl⟩ := Option.map_eq_some_iff.mp stack
    rfl

theorem After.eq_withStack (after : After t initial [] s) : s = withStack t initial := by
  obtain ⟨tokenizer, start, stack, totals⟩ := s
  rw [withStack, Session.mk.injEq]
  exact ⟨after.tokenizer, after.first, after.stack, after.totals⟩

theorem After.line (after : After t initial texts s) (text : String) :
    After t initial (texts ++ [text]) (s.line text).2.1 := by
  obtain ⟨rfl, rfl, stack, totals⟩ := after
  refine ⟨rfl, rfl, ?_, ?_⟩
  · rw [Tokenizer.stackAfter_concat, ← stack]
    rfl
  · rw [Tokenizer.lines_concat, Totals.over_concat, ← totals, ← stack]
    rfl

theorem After.lines (after : After t initial texts s) (more : List String) :
    After t initial (texts ++ more) (s.lines more).2.1 := by
  induction more generalizing s texts with
  | nil =>
    rw [List.append_nil]
    exact after
  | cons text rest ih =>
    have next := ih (after.line text)
    rw [List.append_assoc] at next
    exact next

theorem After.call (after : After t initial texts s) (c : Call) :
    After t initial (c.since texts) (s.call c).2.1 := by
  cases c with
  | line text => exact after.line text
  | document text => exact after.lines (Text.lines text)
  | reset => exact ⟨after.tokenizer, after.first, after.first, rfl⟩

theorem After.calls (after : After t initial texts s) (calls : List Call) :
    After t initial (calls.foldl Call.since texts) (s.calls calls).2 := by
  induction calls generalizing s texts with
  | nil => exact after
  | cons c rest ih => exact ih (after.call c)

theorem calls_append (s : Session) (first second : List Call) :
    s.calls (first ++ second) =
      ((s.calls first).1 ++ ((s.calls first).2.calls second).1, ((s.calls first).2.calls second).2) := by
  induction first generalizing s with
  | nil => rfl
  | cons c rest ih => simp only [List.cons_append, calls, ih]

/-- Whatever was asked of a session, its stack is that of the lines since the last reset, its totals are
those over these lines, and its depth is balanced. What is asked after a reset is answered as if the
session had just been created. -/
theorem history (begun : Begun t initial s) (before : List Call) :
    let now := (s.calls before).2
    let texts := sinceReset before
    now.stack = texts.foldl (fun stack text => (t.line stack text).stack) initial ∧
      now.totals = .over (t.lines initial texts) ∧ now.totals.lines = texts.length ∧
      (now.stack.depth : Int) = 1 + now.totals.counts.pushes - now.totals.counts.pops ∧
      ∀ later, s.calls (before ++ .reset :: later) =
        ((s.calls before).1 ++ ([], []) :: (s.calls later).1, (s.calls later).2) := by
  intro now texts
  have after : After t initial texts now := begun.after.calls before
  have balance := t.depth_stackAfter initial texts
  refine ⟨after.stack, after.totals, ?_, ?_, fun later => ?_⟩
  · rw [after.totals]
    exact t.length_lines initial texts
  · rw [← after.stack, ← after.totals, begun.depth] at balance
    omega
  · have fresh : now.reset = s :=
      (after.call .reset).eq_withStack.trans begun.after.eq_withStack.symm
    rw [calls_append, Session.calls]
    simp only [call]
    rw [fresh]

theorem history_brackets :
    ∃ x s, RuleSet.brackets.load.2 = .ok x ∧ Begun ⟨x, {}⟩ (.ofRoot ⟨0⟩) s ∧
      let before : List Call := [.line "((", .reset, .document "(\n()\n", .line ")"]
      let now := (s.calls before).2
      let texts := sinceReset before
      texts = ["(", "()", ")"] ∧
        now.stack = texts.foldl (fun stack text => (Tokenizer.line ⟨x, {}⟩ stack text).stack)
          (.ofRoot ⟨0⟩) ∧
        now.totals = .over (Tokenizer.lines ⟨x, {}⟩ (.ofRoot ⟨0⟩) texts) ∧
        now.totals.lines = texts.length ∧
        (now.stack.depth : Int) = 1 + now.totals.counts.pushes - now.totals.counts.pops ∧
        ∀ later, s.calls (before ++ .reset :: later) =
          ((s.calls before).1 ++ ([], []) :: (s.calls later).1, (s.calls later).2) := by
  obtain ⟨x, loaded, named⟩ := RuleSet.brackets_load
  have stack : Tokenizer.initialAt? ⟨x, {}⟩ "start" = some (.ofRoot ⟨0⟩) := by
    rw [Tokenizer.initialAt?, named]
    rfl
  have created : startingAt? ⟨x, {}⟩ "start" = some (.withStack ⟨x, {}⟩ (.ofRoot ⟨0⟩)) := by
    rw [startingAt?, stack]
    rfl
  have begun := Begun.named stack created
  exact ⟨x, _, loaded, begun, by decide, history begun _⟩

end Session

end StackLexer
