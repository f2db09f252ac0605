import Mathlib
import StackLexer.Proofs.Lexing.Accounting
import StackLexer.Proofs.Lexing.Gaps
import StackLexer.Proofs.Lexing.StackSafety

/-! The name of the fallback token.
It is the kind of what nobody claims: of characters that no rule matches, and of gaps in matches, in states
without a default token. A scan never looks at it. Joining looks at kinds, but it joins only text that was
taken in one state, and there all unmatched text has one kind under any name. So under another name the
tokens are the same ones, and the name itself is all that is replaced in them. -/

namespace StackLexer

namespace Piece

variable {p r : Piece}

theorem head?_join (p : Piece) (rest : List Piece) :
    ∃ stop more, join (p :: rest) = { p with stop } :: more := by
  rw [join]
  split
  · exact ⟨p.stop, [], rfl⟩
  · split
    · exact ⟨_, _, rfl⟩
    · exact ⟨p.stop, _, rfl⟩

theorem join_cons {next : Piece} {rest more : List Piece} (joined : join rest = next :: more) (p : Piece) :
    join (p :: rest) =
      if next.continues p then { p with stop := next.stop } :: more else p :: next :: more := by
  rw [join, joined]

theorem continues_of_kinds (kinds : loose p r = true → p.kind = r.kind) :
    continues r p = (loose p r && decide (p.stop = r.start)) := by
  by_cases both : loose p r = true
  · rw [both]
    simp only [loose] at both
    simp [continues, both, kinds both]
  · have notBoth : (!p.matched && !r.matched) = false := by simpa [loose] using both
    simp [continues, loose, notBoth]

end Piece

namespace Tokenizer

def falling (t : Tokenizer) (fallback : String) : Tokenizer :=
  { t with settings := { t.settings with fallbackToken := fallback } }

/-- What lies between two positions belongs to nobody: it is a stretch of characters each of which stalls
the scan at one of the cursors, or, if it is matched, a gap in a match of a state without default token. -/
inductive Unclaimed (t : Tokenizer) (line : Line) (cursors : List Cursor) : Bool → Nat → Nat → Prop
  | stalled {start stop : Nat} (some_ : start < stop) (each : ∀ i, start ≤ i → i < stop →
      ∃ c ∈ cursors, c.position = i ∧ t.stalls line c) : Unclaimed t line cursors false start stop
  | gap {c : Cursor} {rule : Lexicon.Rule} {m : Match} {kinds : List String} {s : Share Nat}
      (visited : c ∈ cursors) (bare : (t.lexicon.state c.stack.top).defaultToken = none)
      (found : t.matchAt? line c = some (rule, m)) (tokens : rule.tokens = .groups kinds)
      (part : s ∈ m.shares) (free : s.owner = none) : Unclaimed t line cursors true s.start s.stop

variable {t : Tokenizer} {line : Line} {cursors : List Cursor} {fallback : String}

theorem Unclaimed.join {start middle stop : Nat} (first : t.Unclaimed line cursors false start middle)
    (second : t.Unclaimed line cursors false middle stop) :
    t.Unclaimed line cursors false start stop := by
  cases first with
  | stalled some_ first =>
    cases second with
    | stalled more second =>
      refine .stalled (Nat.lt_trans some_ more) (fun i lower upper => ?_)
      rcases Nat.lt_or_ge i middle with before | after
      · exact first i lower before
      · exact second i after upper

/-- Pieces in the same place, of one kind unless that is the name of the fallback token, put there for text
that belongs to nobody. -/
structure Recast (t : Tokenizer) (line : Line) (cursors : List Cursor) (fallback : String)
    (p q : Piece) : Prop where
  start : q.start = p.start
  stop : q.stop = p.stop
  matched : q.matched = p.matched
  kind : q.kind = p.kind ∨ p.kind = t.settings.fallbackToken ∧ q.kind = fallback ∧
    t.Unclaimed line cursors p.matched p.start p.stop

theorem Recast.refl (p : Piece) : t.Recast line cursors fallback p p := ⟨rfl, rfl, rfl, .inl rfl⟩

theorem Recast.join {p q p' q' : Piece} (first : t.Recast line cursors fallback p q)
    (second : t.Recast line cursors fallback p' q') (unmatched : Piece.loose p p' = true)
    (kinds : p.kind = p'.kind) (kinds' : q.kind = q'.kind) (touch : p.stop = p'.start) :
    t.Recast line cursors fallback { p with stop := p'.stop } { q with stop := q'.stop } := by
  simp only [Piece.loose, Bool.and_eq_true, Bool.not_eq_true'] at unmatched
  refine ⟨first.start, second.stop, first.matched, ?_⟩
  rcases first.kind with same | ⟨old, new, free⟩
  · exact .inl same
  · rcases second.kind with same | ⟨_, _, free'⟩
    · exact .inl (kinds'.trans (same.trans kinds.symm))
    · refine .inr ⟨old, new, ?_⟩
      rw [unmatched.1] at free
      rw [unmatched.2, ← touch] at free'
      dsimp only
      rw [unmatched.1]
      exact free.join free'

theorem Recast.loose {p q p' q' : Piece} (first : t.Recast line cursors fallback p q)
    (second : t.Recast line cursors fallback p' q') : Piece.loose q q' = Piece.loose p p' := by
  rw [Piece.loose, Piece.loose, first.matched, second.matched]

theorem recast_join {pieces others : List Piece}
    (related : List.Forall₂ (t.Recast line cursors fallback) pieces others)
    (kinds : Piece.KindsAgree pieces) (kinds' : Piece.KindsAgree others) :
    List.Forall₂ (t.Recast line cursors fallback) (Piece.join pieces) (Piece.join others) := by
  induction related with
  | nil => exact .nil
  | @cons p q rest rest' first tail ih =>
    obtain ⟨agree, kinds⟩ := List.isChain_cons.mp kinds
    obtain ⟨agree', kinds'⟩ := List.isChain_cons.mp kinds'
    have joined := ih kinds kinds'
    cases tail with
    | nil => exact .cons first .nil
    | @cons r r' more more' second tail =>
      obtain ⟨stop, others, heads⟩ := Piece.head?_join r more
      obtain ⟨stop', others', heads'⟩ := Piece.head?_join r' more'
      rw [heads, heads'] at joined
      obtain ⟨here, joined⟩ := List.forall₂_cons.mp joined
      rw [Piece.join_cons heads, Piece.join_cons heads']
      -- Kinds agree side by side, so that joining asks only for flags and places, which are the same.
      have goesOn : Piece.continues { r with stop } p = (Piece.loose p r && decide (p.stop = r.start)) :=
        Piece.continues_of_kinds (agree r rfl)
      have goesOn' : Piece.continues { r' with stop := stop' } q =
          Piece.continues { r with stop } p := by
        refine (Piece.continues_of_kinds (agree' r' rfl)).trans ?_
        rw [goesOn, first.loose second, first.stop, second.start]
      rw [goesOn', goesOn]
      split
      · rename_i both
        obtain ⟨unmatched, touch⟩ := Bool.and_eq_true_iff.mp both
        refine .cons (first.join here unmatched ?_ ?_ (of_decide_eq_true touch)) joined
        · exact agree r rfl unmatched
        · exact agree' r' rfl (first.loose second ▸ unmatched)
      · exact .cons first (.cons here joined)

/-! ### Steps -/

variable {c : Cursor}

theorem unmatchedKind_falling (c : Cursor) :
    (t.falling fallback).unmatchedKind c =
      (t.lexicon.state c.stack.top).defaultToken.getD fallback := rfl

theorem next_falling (c : Cursor) : ((t.falling fallback).step line c).2 = (t.step line c).2 := by
  have same : (t.falling fallback).matchAt? line c = t.matchAt? line c := rfl
  cases found : t.matchAt? line c with
  | none => rw [step_of_none found, step_of_none (same.trans found)]
  | some match_ =>
    rw [step_of_match found, step_of_match (same.trans found)]
    rfl

theorem step_falling (claimed : (t.lexicon.state c.stack.top).defaultToken ≠ none) :
    (t.falling fallback).step line c = t.step line c := by
  have same : (t.falling fallback).matchAt? line c = t.matchAt? line c := rfl
  obtain ⟨kind, default⟩ := Option.ne_none_iff_exists'.mp claimed
  have default' : ((t.falling fallback).lexicon.state c.stack.top).defaultToken = some kind := default
  cases found : t.matchAt? line c with
  | none => rw [step_of_none found, step_of_none (same.trans found), default, default']
  | some match_ =>
    rw [step_of_match found, step_of_match (same.trans found), default, default']
    rfl

theorem recast_share {m : Match} {kinds : List String} (count : kinds.length = m.groups.length)
    {s : Share Nat} (part : s ∈ m.shares) {gap other : String}
    (free : s.owner = none → t.Recast line cursors fallback (s.piece kinds gap) (s.piece kinds other)) :
    t.Recast line cursors fallback (s.piece kinds gap) (s.piece kinds other) := by
  cases owned : s.owner with
  | none => exact free owned
  | some g =>
    have owners := (Share.partition_cut m.start_le_stop m.groups).owners
    have member : g ∈ m.shares.filterMap Share.owner := List.mem_filterMap.mpr ⟨s, part, owned⟩
    have bound : g < kinds.length := by
      rw [Match.shares, owners] at member
      exact count ▸ List.mem_range.mp member
    have same : s.kind kinds other = s.kind kinds gap := by
      simp [Share.kind, owned, List.getD_eq_getElem?_getD, bound]
    exact ⟨rfl, rfl, rfl, .inl same⟩

theorem recast_match (tokened : t.lexicon.Tokened) {rule : Lexicon.Rule} {m : Match}
    (visited : c ∈ cursors) (bare : (t.lexicon.state c.stack.top).defaultToken = none)
    (found : t.matchAt? line c = some (rule, m)) :
    List.Forall₂ (t.Recast line cursors fallback)
      (Piece.ofMatch rule.tokens m t.settings.fallbackToken) (Piece.ofMatch rule.tokens m fallback) := by
  obtain ⟨member, matched, _⟩ := Lexicon.State.firstMatch?_eq_some found
  cases tokens : rule.tokens with
  | single kind => exact .cons (.refl _) .nil
  | groups kinds =>
    obtain ⟨_, length⟩ := tokened _ rule member kinds tokens
    have count : kinds.length = m.groups.length := length.trans (Pattern.length_groups _ matched).symm
    rw [Match.ofMatch_eq_shares count, Match.ofMatch_eq_shares count, List.forall₂_map_left_iff,
      List.forall₂_map_right_iff, List.forall₂_same]
    intro s part
    apply recast_share count part
    intro free
    have gap : t.Unclaimed line cursors true s.start s.stop := .gap visited bare found tokens part free
    exact ⟨rfl, rfl, rfl, .inr ⟨by simp [Share.piece, Share.kind, free],
      by simp [Share.piece, Share.kind, free], gap⟩⟩

/-- A step yields the same pieces under either name, but for those that belong to nobody. -/
theorem recast_step (tokened : t.lexicon.Tokened) (visited : c ∈ cursors) :
    List.Forall₂ (t.Recast line cursors fallback) (t.step line c).1.pieces
      ((t.falling fallback).step line c).1.pieces := by
  by_cases bare : (t.lexicon.state c.stack.top).defaultToken = none
  · have same : (t.falling fallback).matchAt? line c = t.matchAt? line c := rfl
    cases found : t.matchAt? line c with
    | none =>
      have stalls : t.stalls line c := by simp [stalls, taken?, found, bare]
      have free : t.Unclaimed line cursors false c.position (c.position + 1) := by
        refine .stalled (Nat.lt_succ_self _) (fun i lower upper => ⟨c, visited, ?_, stalls⟩)
        omega
      rw [pieces_of_none found, pieces_of_none (same.trans found), unmatchedKind, unmatchedKind_falling,
        bare]
      exact .cons ⟨rfl, rfl, rfl, .inr ⟨rfl, rfl, free⟩⟩ .nil
    | some match_ =>
      obtain ⟨rule, m⟩ := match_
      have bare' : ((t.falling fallback).lexicon.state c.stack.top).defaultToken = none := bare
      rw [step_of_match found, step_of_match (same.trans found), bare, bare']
      exact recast_match tokened visited bare found
  · rw [step_falling bare, List.forall₂_same]
    exact fun p _ => .refl p

theorem recast_steps (tokened : t.lexicon.Tokened) {some_ : List Cursor} (inside : some_ ⊆ cursors) :
    List.Forall₂ (t.Recast line cursors fallback)
      (some_.flatMap (fun c => (t.step line c).1.pieces))
      (some_.flatMap (fun c => ((t.falling fallback).step line c).1.pieces)) := by
  induction some_ with
  | nil => exact .nil
  | cons c rest ih =>
    obtain ⟨visited, inside⟩ := List.cons_subset.mp inside
    exact List.rel_append (recast_step tokened visited) (ih inside)

end Tokenizer

/-- Tokens with the same text in the same place. They are of one kind, unless the first is named after the
fallback token and the second by another name, and the text belongs to nobody. -/
structure Token.Recast (t : Tokenizer) (line : Line) (cursors : List Cursor) (fallback : String)
    (a b : Token) : Prop where
  span : b.span = a.span
  value : b.value = a.value
  kind : b.kind = a.kind ∨ a.kind = t.settings.fallbackToken ∧ b.kind = fallback ∧
    ∃ matched start stop, a.span = line.span start stop ∧ t.Unclaimed line cursors matched start stop

theorem Tokenizer.Recast.token {t : Tokenizer} {line : Line} {cursors : List Cursor} {fallback : String}
    {p q : Piece} (recast : t.Recast line cursors fallback p q) :
    Token.Recast t line cursors fallback (p.token line) (q.token line) := by
  obtain ⟨start, stop, _, kind⟩ := recast
  refine ⟨?_, ?_, kind.imp id fun ⟨old, new, free⟩ => ⟨old, new, _, _, _, rfl, free⟩⟩
  · rw [Piece.token, start, stop]
    rfl
  · rw [Piece.token, start, stop]
    rfl

namespace Tokenizer

variable {t : Tokenizer} {line : Line} {fallback : String}

theorem visits_falling (t : Tokenizer) (fallback : String) (line : Line) (c : Cursor) :
    (t.falling fallback).visits line c = t.visits line c ∧
      (t.falling fallback).last line c = t.last line c :=
  visits_of_next next_falling c

theorem tokens_falling (tokened : t.lexicon.Tokened) (stack : Stack) (text : String) :
    let line := Line.ofString text
    List.Forall₂ (Token.Recast t line (t.visits line ⟨0, stack, 0⟩) fallback)
      (t.line stack text).tokens ((t.falling fallback).line stack text).tokens := by
  intro line
  have visits := (t.visits_falling fallback line ⟨0, stack, 0⟩).1
  have pieces : List.Forall₂ (t.Recast line (t.visits line ⟨0, stack, 0⟩) fallback) _ _ :=
    recast_steps tokened (List.Subset.refl _)
  have kinds := (kinds_of_visits tokened line ⟨0, stack, 0⟩).1
  have kinds' := (kinds_of_visits (t := t.falling fallback) tokened line ⟨0, stack, 0⟩).1
  have joined := recast_join pieces kinds (visits ▸ kinds')
  simp only [Tokenizer.line, Scan.tokens]
  rw [pieces_scan, pieces_scan, visits, List.forall₂_map_left_iff, List.forall₂_map_right_iff]
  cases merge : t.settings.mergeUnmatched with
  | false =>
    have merge' : (t.falling fallback).settings.mergeUnmatched = false := merge
    rw [merge']
    exact pieces.imp (fun _ _ recast => recast.token)
  | true =>
    have merge' : (t.falling fallback).settings.mergeUnmatched = true := merge
    rw [merge']
    exact joined.imp (fun _ _ recast => recast.token)

theorem stack_falling (stack : Stack) (text : String) :
    ((t.falling fallback).line stack text).stack = (t.line stack text).stack := by
  have last := (t.visits_falling fallback (.ofString text) ⟨0, stack, 0⟩).2
  have final := congrArg Cursor.stack last
  rwa [← stack_scan, ← stack_scan] at final

theorem counts_falling (stack : Stack) (text : String) :
    ((t.falling fallback).line stack text).counts = (t.line stack text).counts := by
  have visits := (t.visits_falling fallback (.ofString text) ⟨0, stack, 0⟩).1
  rw [counts_line, counts_line, visits, countsOf_eq, countsOf_eq]
  rfl

theorem line_falling {stack : Stack} {text : String}
    (claimed : ∀ c ∈ t.visits (.ofString text) ⟨0, stack, 0⟩,
      (t.lexicon.state c.stack.top).defaultToken ≠ none) :
    (t.falling fallback).line stack text = t.line stack text ∧ (t.line stack text).counts.stalls = 0 := by
  have scans : (t.falling fallback).scan stack (.ofString text) = t.scan stack (.ofString text) :=
    scan_of_steps (fun c visited => step_falling (claimed c visited))
  constructor
  · rw [line, scans]
    rfl
  · rw [counts_line, countsOf_eq]
    apply List.countP_eq_zero.mpr
    intro c visited
    simp [stalls, Option.isNone_iff_eq_none, claimed c visited]

end Tokenizer

namespace RuleSet

variable {set : RuleSet} {x : Lexicon}

theorem there_of_visits [RegexEngine] (loaded : set.load.2 = .ok x) (settings : Settings) {line : Line} {stack : Stack}
    (there : ∀ id ∈ stack.root :: stack.frames, id.index < x.stateCount) :
    ∀ c ∈ Tokenizer.visits ⟨x, settings⟩ line ⟨0, stack, 0⟩, c.stack.top.index < x.stateCount := by
  have made : ∀ id ∈ stack.root :: stack.frames, set.Made id :=
    fun id member => made_of_bound loaded (there id member)
  obtain ⟨root, frames⟩ := List.forall_mem_cons.mp made
  let inside (c : Cursor) : Prop := set.Made c.stack.root ∧ ∀ id ∈ c.stack.frames, set.Made id
  have first : inside ⟨0, stack, 0⟩ := ⟨root, frames⟩
  have closed : (Tokenizer.mk x settings).lexicon.Closed set.Made := load_closed loaded
  have holds : ∀ c ∈ Tokenizer.visits ⟨x, settings⟩ line ⟨0, stack, 0⟩, inside c :=
    Tokenizer.visits_invariant first (fun c _ => Tokenizer.step_holds closed)
  intro c visited
  have top : set.Made c.stack.top := (holds c visited).2 _ (Stack.mem_frames.mpr (.inl rfl))
  exact made_bound loaded top

/-- Under settings that differ only in the name of the fallback token, a line yields as many tokens, with the
same text in the same places, and the same stack and counts. Where the kinds of two tokens differ, each is
the fallback token's, and the text is unmatched or a gap in a state without default token. If no state is
without one, nothing differs and nothing stalls. -/
theorem loaded_fallback_unseen [RegexEngine] (loaded : set.load.2 = .ok x) (settings : Settings) (fallback : String)
    (stack : Stack) (text : String) :
    let t : Tokenizer := ⟨x, settings⟩
    let line := Line.ofString text
    let out := t.line stack text
    let other := (t.falling fallback).line stack text
    List.Forall₂ (Token.Recast t line (t.visits line ⟨0, stack, 0⟩) fallback) out.tokens other.tokens ∧
      other.stack = out.stack ∧ other.counts = out.counts ∧
      ((∀ state ∈ x.states, state.defaultToken ≠ none) →
        (∀ id ∈ stack.root :: stack.frames, id.index < x.stateCount) →
          other = out ∧ out.counts.stalls = 0) := by
  intro t line out other
  have tokened : t.lexicon.Tokened := load_tokened loaded
  refine ⟨t.tokens_falling tokened stack text, t.stack_falling stack text, t.counts_falling stack text, ?_⟩
  intro every there
  apply t.line_falling
  intro c visited
  have bound := there_of_visits loaded settings there c visited
  have state : x.state c.stack.top ∈ x.states := by
    rw [Lexicon.state, Array.getElem?_eq_getElem bound]
    exact Array.getElem_mem bound
  exact every _ state

def tags (claims : List Rule) : RuleSet :=
  RuleSet.empty.withState "start" (Rule.groups ["letter"] "<(a)>" :: claims)

/-- The fallback token is named as a group is. With a default token it does not matter at all. -/
theorem tags_fallback_unseen :
    ∃ x, (tags [Rule.default "plain"]).load.2 = .ok x ∧
      let t : Tokenizer := ⟨x, {}⟩
      let line := Line.ofString "b<a>"
      let stack := Stack.ofRoot ⟨0⟩
      let out := t.line stack "b<a>"
      let other := (t.falling "letter").line stack "b<a>"
      List.Forall₂ (Token.Recast t line (t.visits line ⟨0, stack, 0⟩) "letter") out.tokens other.tokens ∧
        other.stack = out.stack ∧ other.counts = out.counts ∧
        (∀ state ∈ x.states, state.defaultToken ≠ none) ∧
        (∀ id ∈ stack.root :: stack.frames, id.index < x.stateCount) ∧
        other = out ∧ out.counts.stalls = 0 := by
  have read : (tags [Rule.default "plain"]).load.2.toOption.map (fun x =>
      x.states.toList.map Lexicon.State.defaultToken) = some [some "plain"] := by cbv
  obtain ⟨x, found, defaults⟩ := Option.map_eq_some_iff.mp read
  have loaded := load_of_toOption found
  obtain ⟨tokens, same, counts, claimed⟩ :=
    loaded_fallback_unseen loaded {} "letter" (.ofRoot ⟨0⟩) "b<a>"
  have every : ∀ state ∈ x.states, state.defaultToken ≠ none := by
    intro state member
    have default := List.mem_map_of_mem (f := Lexicon.State.defaultToken) (Array.mem_toList_iff.mpr member)
    rw [defaults, List.mem_singleton] at default
    exact default ▸ Option.some_ne_none _
  have there : ∀ id ∈ (Stack.ofRoot ⟨0⟩).root :: (Stack.ofRoot ⟨0⟩).frames, id.index < x.stateCount := by
    have count : x.stateCount = 1 := by
      simpa [Lexicon.stateCount] using congrArg List.length defaults
    rw [count]
    decide
  obtain ⟨result, stalls⟩ := claimed every there
  exact ⟨x, loaded, tokens, same, counts, every, there, result, stalls⟩

example :
    (tags []).load.2.toOption.map (fun x =>
      ["text", "letter"].map (fun fallback =>
        ((Tokenizer.mk x {}).falling fallback |>.line (.ofRoot ⟨0⟩) "bc<a>").tokens.map
          (fun t => (t.kind, t.value)))) =
      some [[("text", "bc"), ("text", "<"), ("letter", "a"), ("text", ">")],
        [("letter", "bc"), ("letter", "<"), ("letter", "a"), ("letter", ">")]] := by
  cbv

end RuleSet

end StackLexer
