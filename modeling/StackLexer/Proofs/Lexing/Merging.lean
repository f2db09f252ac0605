import Mathlib
import StackLexer.Proofs.Grammar.Numbering
import StackLexer.Proofs.Lexing.Tiling
import StackLexer.Proofs.Lexing.Visits

/-! What joining unmatched text does to the tokens of a line.
The pieces of a line are cut into runs, each a piece of a match or all the unmatched pieces between two
matches. A step that matches yields some piece, so that unmatched pieces side by side come from steps
side by side. These leave the stack alone and thus have one kind, and joining makes one piece of each
run. -/

namespace StackLexer

/-- A token stands for tokens that lie one after the other. -/
structure Token.Joins (tokens : List Token) (token : Token) : Prop where
  alone : ∀ t, tokens = [t] → token = t
  kind : ∀ t ∈ tokens, t.kind = token.kind
  value : token.value = Token.detokenize tokens
  start : tokens.head?.map (fun t => t.span.start) = some token.span.start
  stop : tokens.getLast?.map (fun t => t.span.stop) = some token.span.stop

theorem Tiles.touch {start stop : Nat} {pieces : List Piece}
    (tiles : Tiles start (pieces.map Piece.extent) stop) :
    pieces.IsChain (fun p q => p.stop = q.start) := by
  induction pieces generalizing start with
  | nil => exact .nil
  | cons p rest ih =>
    obtain ⟨_, _, tail⟩ := tiles
    refine List.isChain_cons.mpr ⟨fun q next => ?_, ih tail⟩
    obtain ⟨rest', rfl⟩ := List.head?_eq_some_iff.mp next
    exact tail.1.symm

theorem Tiles.split {start stop : Nat} {ranges others : List (Nat × Nat)}
    (tiles : Tiles start (ranges ++ others) stop) :
    ∃ middle, Tiles start ranges middle ∧ Tiles middle others stop := by
  induction ranges generalizing start with
  | nil => exact ⟨start, rfl, tiles⟩
  | cons range rest ih =>
    obtain ⟨first, order, tail⟩ := tiles
    obtain ⟨middle, before, after⟩ := ih tail
    exact ⟨middle, ⟨first, order, before⟩, after⟩

namespace Piece

def loose (p q : Piece) : Bool := !p.matched && !q.matched

/-- The pieces cut into runs: the longest stretches of unmatched pieces, and the others one by one. -/
def runs (pieces : List Piece) : List (List Piece) := pieces.splitBy loose

def KindsAgree (pieces : List Piece) : Prop :=
  pieces.IsChain (fun p q => loose p q = true → p.kind = q.kind)

def joined : List Piece → Piece
  | [] => default
  | [p] => p
  | p :: q :: rest => { p with stop := (joined (q :: rest)).stop }

variable {p q : Piece} {run rest pieces : List Piece} {runs : List (List Piece)}

theorem joined_cons (p : Piece) (rest : List Piece) :
    joined (p :: rest) = { p with stop := (joined (p :: rest)).stop } := by
  cases rest <;> rfl

theorem matched_head?_join (pieces : List Piece) :
    (join pieces).head?.map matched = pieces.head?.map matched := by
  cases pieces with
  | nil => rfl
  | cons p rest =>
    rw [join]
    split
    · rfl
    · split <;> rfl

/-- A run that goes on from piece to piece is joined to one piece, if what follows does not go on. -/
theorem join_run (some_ : run ≠ []) (inside : run.IsChain (fun p q => q.continues p))
    (apart : ∀ p ∈ run.getLast?, ∀ q ∈ rest.head?, loose p q = false) :
    join (run ++ rest) = joined run :: join rest := by
  induction run with
  | nil => exact absurd rfl some_
  | cons p more ih =>
    cases more with
    | nil =>
      rw [List.singleton_append, join, joined]
      split
      · rename_i none_
        rw [none_]
      · rename_i next others first
        -- What follows begins as its own first piece does, and that one does not go on.
        have flag := matched_head?_join rest
        rw [first] at flag
        obtain ⟨q, head, same⟩ := Option.map_eq_some_iff.mp flag.symm
        have stops : next.continues p = false := by
          have fixed := apart p rfl q head
          simp only [loose, same] at fixed
          simp [continues, fixed]
        rw [stops, first]
        rfl
    | cons q more =>
      obtain ⟨goesOn, tail⟩ := List.isChain_cons_cons.mp inside
      have others := ih (List.cons_ne_nil q more) tail
        (fun p last q first => apart p (by rwa [List.getLast?_cons_cons]) q first)
      have same : (joined (q :: more)).continues p = true := by
        rw [joined_cons]
        exact goesOn
      rw [List.cons_append, join, others]
      simp only [same, if_true, joined]

theorem join_flatten (some_ : [] ∉ runs)
    (inside : ∀ run ∈ runs, run.IsChain (fun p q => q.continues p))
    (apart : runs.IsChain (fun run next => ∃ some_ next_,
      loose (run.getLast some_) (next.head next_) = false)) :
    join runs.flatten = runs.map joined := by
  induction runs with
  | nil => rfl
  | cons run others ih =>
    obtain ⟨border, tail⟩ := List.isChain_cons.mp apart
    have rest := ih (fun inside => some_ (List.mem_cons_of_mem _ inside))
      (fun run member => inside run (List.mem_cons_of_mem _ member)) tail
    have filled : run ≠ [] := fun none_ => some_ (none_ ▸ List.mem_cons_self)
    rw [List.flatten_cons, List.map_cons, ← rest]
    refine join_run filled (inside run List.mem_cons_self) (fun p last q first => ?_)
    cases others with
    | nil => simp at first
    | cons next others =>
      obtain ⟨_, next_, ends⟩ := border next rfl
      rw [List.flatten_cons, List.head?_append_of_ne_nil _ next_,
        List.head?_eq_some_head next_] at first
      rw [List.getLast?_eq_some_getLast filled] at last
      rwa [← Option.some.inj first, ← Option.some.inj last]

theorem extent_joined {start stop : Nat} (some_ : run ≠ [])
    (tiles : Tiles start (run.map extent) stop) :
    (joined run).start = start ∧ (joined run).stop = stop := by
  induction run generalizing start with
  | nil => exact absurd rfl some_
  | cons p rest ih =>
    obtain ⟨first, _, tail⟩ := tiles
    cases rest with
    | nil => exact ⟨first, tail⟩
    | cons q rest => exact ⟨first, (ih (List.cons_ne_nil q rest) tail).2⟩

theorem stop_joined (some_ : run ≠ []) : (run.getLast some_).stop = (joined run).stop := by
  induction run with
  | nil => exact absurd rfl some_
  | cons p rest ih =>
    cases rest with
    | nil => rfl
    | cons q rest =>
      rw [List.getLast_cons (List.cons_ne_nil q rest), ih (List.cons_ne_nil q rest)]
      rfl

theorem kind_joined (inside : run.IsChain (fun p q => q.continues p)) :
    ∀ p ∈ run, p.kind = (joined run).kind := by
  induction run with
  | nil => simp
  | cons p rest ih =>
    rw [joined_cons]
    intro other member
    rcases List.mem_cons.mp member with rfl | later
    · rfl
    · cases rest with
      | nil => simp at later
      | cons q rest =>
        obtain ⟨goesOn, tail⟩ := List.isChain_cons_cons.mp inside
        have same := ih tail other later
        rw [joined_cons] at same
        simp only [continues, Bool.and_eq_true, beq_iff_eq] at goesOn
        exact same.trans goesOn.1.2.symm

theorem joins_joined (line : Line) {start stop : Nat} (some_ : run ≠ [])
    (tiles : Tiles start (run.map extent) stop)
    (inside : run.IsChain (fun p q => q.continues p)) :
    Token.Joins (run.map (token line)) (token line (joined run)) := by
  obtain ⟨first, last⟩ := extent_joined some_ tiles
  constructor
  case alone =>
    intro t only
    obtain ⟨p, rfl, rfl⟩ := List.map_eq_singleton_iff.mp only
    rfl
  case kind =>
    intro t member
    obtain ⟨p, inRun, rfl⟩ := List.mem_map.mp member
    exact kind_joined inside p inRun
  case value =>
    rw [Token.detokenize, List.map_map]
    refine Eq.trans ?_ (join_texts line tiles).symm
    rw [token, first, last]
  case start =>
    obtain ⟨p, rest, rfl⟩ := List.exists_cons_of_ne_nil some_
    rw [joined_cons]
    rfl
  case stop =>
    rw [List.getLast?_map, List.getLast?_eq_some_getLast some_, token, ← stop_joined some_]
    rfl

theorem infix_of_mem_runs (member : run ∈ Piece.runs pieces) : run <:+: pieces := by
  have inside := List.infix_of_mem_flatten member
  rwa [Piece.runs, List.flatten_splitBy] at inside

theorem loose_of_mem_runs (member : run ∈ Piece.runs pieces) :
    (∃ p, run = [p] ∧ p.matched = true) ∨ ∀ p ∈ run, p.matched = false := by
  have chain := List.isChain_of_mem_splitBy member
  clear member
  induction run with
  | nil => simp
  | cons p rest ih =>
    cases rest with
    | nil => cases flag : p.matched <;> simp [flag]
    | cons q rest =>
      obtain ⟨both, tail⟩ := List.isChain_cons_cons.mp chain
      simp only [loose, Bool.and_eq_true, Bool.not_eq_true'] at both
      refine .inr (fun other member => ?_)
      rcases List.mem_cons.mp member with rfl | later
      · exact both.1
      · rcases ih tail with ⟨only, same, flag⟩ | unmatched
        · obtain rfl := (List.cons.inj same).1
          exact absurd (both.2.symm.trans flag) Bool.false_ne_true
        · exact unmatched other later

theorem KindsAgree.cons (kinds : KindsAgree rest)
    (first : ∀ q ∈ rest.head?, q.matched = false → p.kind = q.kind) : KindsAgree (p :: rest) := by
  refine List.isChain_cons.mpr ⟨fun q next both => first q next ?_, kinds⟩
  simp only [loose, Bool.and_eq_true, Bool.not_eq_true'] at both
  exact both.2

theorem KindsAgree.append (kinds : KindsAgree rest) (matched : ∀ p ∈ pieces, p.matched = true) :
    KindsAgree (pieces ++ rest) := by
  induction pieces with
  | nil => exact kinds
  | cons p more ih =>
    obtain ⟨flag, others⟩ := List.forall_mem_cons.mp matched
    refine List.isChain_cons.mpr ⟨fun q _ both => ?_, ih others⟩
    simp [loose, flag] at both

/-- Pieces that cover a line go on within their runs if unmatched pieces side by side have one kind. -/
theorem continues_of_mem_runs {start stop : Nat} (tiles : Tiles start (pieces.map extent) stop)
    (kinds : KindsAgree pieces) (member : run ∈ Piece.runs pieces) :
    run.IsChain (fun p q => q.continues p) := by
  have within := infix_of_mem_runs member
  have both := List.isChain_of_mem_splitBy member
  have touch := tiles.touch.infix within
  have kinds := List.IsChain.infix kinds within
  rw [List.isChain_iff_forall_rel_of_append_cons_cons] at both touch kinds ⊢
  intro p q before after split
  have unmatched := both split
  have kind := kinds split unmatched
  have next := touch split
  simp only [loose] at unmatched
  simp [continues, unmatched, kind, next]

theorem join_eq_runs {start stop : Nat} (tiles : Tiles start (pieces.map extent) stop)
    (kinds : KindsAgree pieces) : join pieces = (Piece.runs pieces).map joined := by
  have whole : (Piece.runs pieces).flatten = pieces := List.flatten_splitBy loose pieces
  conv => lhs; rw [← whole]
  exact join_flatten (List.nil_notMem_splitBy loose pieces)
    (fun run member => continues_of_mem_runs tiles kinds member)
    (List.isChain_getLast_head_splitBy loose pieces)

theorem tiles_of_mem {start stop : Nat} (tiles : Tiles start (runs.flatten.map extent) stop)
    (member : run ∈ runs) : ∃ first last, Tiles first (run.map extent) last := by
  obtain ⟨before, after, rfl⟩ := List.append_of_mem member
  rw [List.flatten_append, List.flatten_cons, List.map_append, List.map_append] at tiles
  obtain ⟨first, _, tail⟩ := tiles.split
  obtain ⟨last, inside, _⟩ := tail.split
  exact ⟨first, last, inside⟩

theorem join_tokens (line : Line) {start stop : Nat} (tiles : Tiles start (pieces.map extent) stop)
    (kinds : KindsAgree pieces) :
    List.Forall₂ (fun run token => Token.Joins (run.map (Piece.token line)) token)
      (Piece.runs pieces) ((join pieces).map (Piece.token line)) := by
  have whole : (Piece.runs pieces).flatten = pieces := List.flatten_splitBy loose pieces
  rw [join_eq_runs tiles kinds, List.map_map, List.forall₂_map_right_iff, List.forall₂_same]
  intro run member
  obtain ⟨first, last, inside⟩ := tiles_of_mem (whole.symm ▸ tiles) member
  have some_ : run ≠ [] := List.ne_nil_of_mem_splitBy member
  exact joins_joined line some_ inside (continues_of_mem_runs tiles kinds member)

/-! The pieces of a match. -/

theorem matched_of_mem_ofGroups {gap : String} {stop cursor : Nat}
    {groups : List (String × Option (Nat × Nat))} :
    ∀ p ∈ ofGroups gap stop cursor groups, p.matched = true := by
  induction groups generalizing cursor with
  | nil =>
    rw [ofGroups]
    split <;> simp
  | cons group others ih =>
    obtain ⟨kind, text⟩ := group
    cases text with
    | none => simpa [ofGroups] using fun p => ih p
    | some text =>
      rw [ofGroups]
      split <;> simpa using fun p => ih p

theorem matched_of_mem_ofMatch {tokens : TokenSpec} {m : Match} {gap : String} :
    ∀ p ∈ ofMatch tokens m gap, p.matched = true := by
  cases tokens with
  | single kind => simp [ofMatch]
  | groups kinds => exact matched_of_mem_ofGroups

theorem ofGroups_ne_nil {gap : String} {stop cursor : Nat}
    {groups : List (String × Option (Nat × Nat))} (some_ : groups ≠ []) :
    ofGroups gap stop cursor groups ≠ [] := by
  obtain ⟨⟨kind, text⟩, others, rfl⟩ := List.exists_cons_of_ne_nil some_
  cases text with
  | none => simp [ofGroups]
  | some text =>
    rw [ofGroups]
    split <;> simp

end Piece

def Lexicon.Tokened (x : Lexicon) : Prop :=
  ∀ id, ∀ rule ∈ (x.state id).rules, ∀ kinds, rule.tokens = .groups kinds →
    kinds ≠ [] ∧ kinds.length = rule.pattern.groupCount

theorem RuleSet.load_tokened [RegexEngine] {set : RuleSet} {x : Lexicon} (loaded : set.load.2 = .ok x) :
    x.Tokened := by
  intro id rule member
  by_cases bound : id.index < x.stateCount
  · obtain ⟨key, source⟩ := made_of_bound loaded bound
    obtain ⟨a, e, _, _, _, compiled⟩ := state_of_source loaded source
    obtain ⟨entry, _, fromEntry⟩ := exists_related compiled.flip (Array.mem_toList_iff.mpr member)
    exact fromEntry.groups
  · have none_ : x.states[id.index]? = none := Array.getElem?_eq_none (Nat.not_lt.mp bound)
    simp [Lexicon.state, none_] at member

namespace Tokenizer

variable {t : Tokenizer} {line : Line} {c : Cursor}

def unmatchedKind (t : Tokenizer) (c : Cursor) : String :=
  (t.lexicon.state c.stack.top).defaultToken.getD t.settings.fallbackToken

theorem pieces_of_none (found : t.matchAt? line c = none) :
    (t.step line c).1.pieces = [⟨t.unmatchedKind c, c.position, c.position + 1, false⟩] := by
  rw [step_of_none found, unmatchedKind]
  cases (t.lexicon.state c.stack.top).defaultToken <;> rfl

theorem pieces_of_match (tokened : t.lexicon.Tokened) {rule : Lexicon.Rule} {m : Match}
    (found : t.matchAt? line c = some (rule, m)) :
    (t.step line c).1.pieces ≠ [] ∧ ∀ p ∈ (t.step line c).1.pieces, p.matched = true := by
  obtain ⟨member, matched, _⟩ := Lexicon.State.firstMatch?_eq_some found
  rw [step_of_match found]
  refine ⟨?_, Piece.matched_of_mem_ofMatch⟩
  simp only [Step.pieces, Piece.ofMatch]
  cases tokens : rule.tokens with
  | single kind => simp
  | groups kinds =>
    obtain ⟨some_, length⟩ := tokened _ rule member kinds tokens
    have count := Pattern.length_groups _ matched
    apply Piece.ofGroups_ne_nil
    intro none_
    rcases List.zip_eq_nil_iff.mp none_ with none_ | none_
    · exact some_ none_
    · rw [none_, ← length] at count
      exact some_ (List.length_eq_zero_iff.mp count.symm)

/-- Unmatched pieces side by side have one kind. That of the first piece, if no rule matched it, is the
kind of unmatched text where the scan begins. -/
theorem kinds_of_visits (tokened : t.lexicon.Tokened) (line : Line) (c : Cursor) :
    let pieces := (t.visits line c).flatMap (fun d => (t.step line d).1.pieces)
    Piece.KindsAgree pieces ∧
      ∀ p ∈ pieces.head?, p.matched = false → p.kind = t.unmatchedKind c := by
  induction c using t.visits_induction line with
  | done c beyond =>
    rw [visits_end beyond]
    exact ⟨.nil, by simp⟩
  | step c before ih =>
    obtain ⟨kinds, first⟩ := ih
    rw [visits_step before, List.flatMap_cons]
    cases found : t.matchAt? line c with
    | none =>
      -- The stack stays as it is, so that the next piece has the same kind if nothing matches there.
      have same : t.unmatchedKind (t.step line c).2 = t.unmatchedKind c := by
        rw [step_of_none found]
        rfl
      rw [pieces_of_none found, List.singleton_append]
      refine ⟨kinds.cons (fun q next unmatched => ?_), fun p head _ => ?_⟩
      · exact ((first q next unmatched).trans same).symm
      · obtain rfl := Option.some.inj head
        rfl
    | some match_ =>
      obtain ⟨some_, matched⟩ := pieces_of_match tokened found
      refine ⟨kinds.append matched, fun p head unmatched => ?_⟩
      rw [List.head?_append_of_ne_nil _ some_] at head
      have flag := matched p (List.mem_of_head? head)
      exact absurd (unmatched.symm.trans flag) Bool.false_ne_true

theorem visit_of_unmatched (tokened : t.lexicon.Tokened) {cursors : List Cursor} {p : Piece}
    (member : p ∈ cursors.flatMap (fun d => (t.step line d).1.pieces)) (unmatched : p.matched = false) :
    ∃ c ∈ cursors, p = ⟨t.unmatchedKind c, c.position, c.position + 1, false⟩ := by
  obtain ⟨c, visited, inside⟩ := List.mem_flatMap.mp member
  refine ⟨c, visited, ?_⟩
  cases found : t.matchAt? line c with
  | none =>
    rw [pieces_of_none found] at inside
    exact List.mem_singleton.mp inside
  | some match_ =>
    have flag := (pieces_of_match tokened found).2 p inside
    exact absurd (unmatched.symm.trans flag) Bool.false_ne_true

def merging (t : Tokenizer) (merge : Bool) : Tokenizer :=
  { t with settings := { t.settings with mergeUnmatched := merge } }

theorem scan_merging (t : Tokenizer) (merge : Bool) (stack : Stack) (line : Line) :
    (t.merging merge).scan stack line = t.scan stack line :=
  scan_of_steps (fun _ _ => rfl)

end Tokenizer

theorem Line.text_character (line : Line) {i : Nat} (inside : i < line.size) :
    ∃ c : Char, line.text i (i + 1) = String.singleton c := by
  have bound : i < line.chars.toList.length := by simpa [size] using inside
  refine ⟨line.chars.toList[i], ?_⟩
  rw [text_eq, Nat.add_sub_cancel_left, List.drop_eq_getElem_cons bound]
  rfl

/-- What a line yields with unmatched text apart and with it joined. Each token that stands apart is that
of a piece of a step. Joined tokens are those of the runs of pieces, no two of which are unmatched side by
side. -/
structure Merges (line : Line) (steps : List Step) (apart joined : LineTokens) : Prop where
  stack : joined.stack = apart.stack
  counts : joined.counts = apart.counts
  apart : apart.tokens = (steps.flatMap Step.pieces).map (Piece.token line)
  flags : ∀ step ∈ steps, ∀ p ∈ step.pieces,
    p.matched = false ↔ ∃ position kind stalled, step = .unmatched position kind stalled
  characters : ∀ p ∈ steps.flatMap Step.pieces, p.matched = false →
    ∃ c : Char, (p.token line).value = String.singleton c
  whole : (Piece.runs (steps.flatMap Step.pieces)).flatten = steps.flatMap Step.pieces
  runs : ∀ run ∈ Piece.runs (steps.flatMap Step.pieces),
    (∃ p, run = [p] ∧ p.matched = true) ∨ run ≠ [] ∧ ∀ p ∈ run, p.matched = false
  maximal : (Piece.runs (steps.flatMap Step.pieces)).IsChain
    (fun run next => ∃ p, (p ∈ run ∨ p ∈ next) ∧ p.matched = true)
  joined : List.Forall₂ (fun run token => Token.Joins (run.map (Piece.token line)) token)
    (Piece.runs (steps.flatMap Step.pieces)) joined.tokens

namespace Piece

theorem maximal_runs (pieces : List Piece) :
    (runs pieces).IsChain (fun run next => ∃ p, (p ∈ run ∨ p ∈ next) ∧ p.matched = true) := by
  refine (List.isChain_getLast_head_splitBy loose pieces).imp ?_
  rintro run next ⟨some_, next_, ends⟩
  simp only [loose, Bool.and_eq_false_iff, Bool.not_eq_false'] at ends
  rcases ends with last | first
  · exact ⟨_, .inl (List.getLast_mem some_), last⟩
  · exact ⟨_, .inr (List.head_mem next_), first⟩

end Piece

theorem Step.unmatched_iff {step : Step} {p : Piece} (member : p ∈ step.pieces) :
    p.matched = false ↔ ∃ position kind stalled, step = .unmatched position kind stalled := by
  cases step with
  | matched rule found gap effect => simp [Piece.matched_of_mem_ofMatch p member]
  | unmatched position kind stalled =>
    obtain rfl := List.mem_singleton.mp member
    simp

/-- Under settings that differ only in whether unmatched text is joined, a loaded lexicon scans any line
alike, and joining puts one token in place of each run of unmatched ones. -/
theorem RuleSet.loaded_line_merges [RegexEngine] {set : RuleSet} {x : Lexicon} (loaded : set.load.2 = .ok x)
    (settings : Settings) (stack : Stack) (text : String) :
    let t : Tokenizer := ⟨x, settings⟩
    Merges (.ofString text) (t.scan stack (.ofString text)).steps ((t.merging false).line stack text)
      ((t.merging true).line stack text) := by
  intro t
  have tokened : t.lexicon.Tokened := load_tokened loaded
  have tiles := t.tiles_scan stack (.ofString text)
  have steps := t.steps_scan stack (.ofString text)
  have pieces : (t.scan stack (.ofString text)).steps.flatMap Step.pieces =
      (t.visits (.ofString text) ⟨0, stack, 0⟩).flatMap
        (fun c => (t.step (.ofString text) c).1.pieces) := by
    rw [steps, List.flatMap_map]
  have kinds := (Tokenizer.kinds_of_visits tokened (.ofString text) ⟨0, stack, 0⟩).1
  rw [← pieces] at kinds
  have characters : ∀ p ∈ (t.scan stack (.ofString text)).steps.flatMap Step.pieces,
      p.matched = false →
        ∃ c : Char, (p.token (.ofString text)).value = String.singleton c := by
    intro p member unmatched
    obtain ⟨c, visited, rfl⟩ := Tokenizer.visit_of_unmatched tokened (pieces ▸ member) unmatched
    exact Line.text_character _ (Tokenizer.visits_bounds _ _ c visited).2
  have runs : ∀ run ∈ Piece.runs ((t.scan stack (.ofString text)).steps.flatMap Step.pieces),
      (∃ p, run = [p] ∧ p.matched = true) ∨ run ≠ [] ∧ ∀ p ∈ run, p.matched = false := by
    intro run member
    have some_ : run ≠ [] := List.ne_nil_of_mem_splitBy member
    exact (Piece.loose_of_mem_runs member).imp id (fun unmatched => ⟨some_, unmatched⟩)
  exact {
    stack := by simp only [Tokenizer.line, Tokenizer.scan_merging]
    counts := by simp only [Tokenizer.line, Tokenizer.scan_merging]
    apart := by
      simp only [Tokenizer.line, Tokenizer.scan_merging, Scan.tokens]
      rfl
    flags := fun step _ p member => step.unmatched_iff member
    characters
    whole := List.flatten_splitBy _ _
    runs
    maximal := Piece.maximal_runs _
    joined := by
      simp only [Tokenizer.line, Tokenizer.scan_merging, Scan.tokens]
      exact Piece.join_tokens _ tiles kinds }

theorem RuleSet.brackets_line_merges :
    ∃ x, brackets.load.2 = .ok x ∧
      let t : Tokenizer := ⟨x, {}⟩
      let stack := Stack.ofRoot ⟨0⟩
      Merges (.ofString "a(b c)") (t.scan stack (.ofString "a(b c)")).steps
        ((t.merging false).line stack "a(b c)") ((t.merging true).line stack "a(b c)") := by
  obtain ⟨x, loaded, _⟩ := brackets_load
  exact ⟨x, loaded, loaded_line_merges loaded {} (.ofRoot ⟨0⟩) "a(b c)"⟩

end StackLexer
