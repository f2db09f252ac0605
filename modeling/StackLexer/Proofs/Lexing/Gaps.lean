import StackLexer.Proofs.Lexing.Merging
import StackLexer.Proofs.Lexing.Shares

/-! What is left of a match as gaps.
What is in the text of no group is left as a gap. But the groups are gone over once, in the order of
their numbers, and nothing is taken for a group that lies before the text of an earlier one. A later
group whose text begins further left, as it may where groups repeat or look around, loses what lies
there, and this becomes a gap as well. -/

namespace StackLexer

def Held (texts : List (Option (Nat × Nat))) (p : Nat) : Prop :=
  ∃ first last, some (first, last) ∈ texts ∧ first ≤ p ∧ p < last

/-- The first text that ends after a position, if there is one, begins after it too. -/
def PassedOver (texts : List (Option (Nat × Nat))) (p : Nat) : Prop :=
  ∀ text ∈ (texts.filterMap id).find? (fun text => p < text.2), p < text.1

/-- No text begins after a position if a later one holds it. -/
def InOrderAt (texts : List (Option (Nat × Nat))) (p : Nat) : Prop :=
  (texts.filterMap id).Pairwise
    (fun former latter => latter.1 ≤ p → p < latter.2 → former.1 ≤ p)

section Texts

variable {texts : List (Option (Nat × Nat))} {p : Nat}

theorem held_iff : Held texts p ↔ ∃ text ∈ texts.filterMap id, text.1 ≤ p ∧ p < text.2 := by
  simp [Held]

@[simp] theorem passedOver_none : PassedOver (none :: texts) p ↔ PassedOver texts p := by
  simp [PassedOver]

theorem passedOver_some {text : Nat × Nat} :
    PassedOver (some text :: texts) p ↔ if p < text.2 then p < text.1 else PassedOver texts p := by
  by_cases reaches : p < text.2 <;> simp [PassedOver, reaches]

theorem passedOver_of_not_held (free : ¬ Held texts p) : PassedOver texts p := by
  intro text found
  have reaches : p < text.2 := by simpa using List.find?_some found
  have member := List.mem_of_find?_eq_some found
  by_contra begins
  exact free (held_iff.mpr ⟨text, member, Nat.not_lt.mp begins, reaches⟩)

theorem not_held_of_passedOver (inOrder : InOrderAt texts p) (passed : PassedOver texts p) :
    ¬ Held texts p := by
  rw [held_iff]
  rintro ⟨text, member, begins, reaches⟩
  obtain ⟨first, found⟩ : ∃ first, (texts.filterMap id).find? (fun text => p < text.2) = some first :=
    Option.isSome_iff_exists.mp (List.find?_isSome.mpr ⟨text, member, by simpa using reaches⟩)
  have after := passed first found
  obtain ⟨_, before, rest, split, early⟩ := List.find?_eq_some_iff_append.mp found
  rw [InOrderAt, split] at inOrder
  rw [split] at member
  -- The text that holds the position is not among those that end before it.
  rcases List.mem_append.mp member with inside | inside
  · have ends := early text inside
    simp at ends
    omega
  · rcases List.mem_cons.mp inside with rfl | inside
    · omega
    · have tail := (List.pairwise_append.mp inOrder).2.1
      have ordered := (List.pairwise_cons.mp tail).1 text inside begins reaches
      omega

end Texts

namespace Share

variable {α : Type} {stop cursor p : Nat} {groups : List (α × Option (Nat × Nat))}

theorem not_holds_of_cut (order : cursor ≤ stop) (before : p < cursor) {s : Share α}
    (member : s ∈ cut stop cursor groups) : ¬ s.Holds p := by
  have after : cursor ≤ s.start := (tiles_cut order groups).start_le (List.mem_map_of_mem member)
  intro holds
  exact Nat.not_lt.mpr (Nat.le_trans after holds.1) before

theorem gap_between_iff {start : Nat} :
    (∃ s ∈ (between start stop : List (Share α)), s.owner = none ∧ s.Holds p) ↔
      start ≤ p ∧ p < stop := by
  unfold between
  split
  · simp [Holds]
  · simp
    omega

theorem gap_some_iff {start : Nat} {owner : α} {others : List (Share α)} {finish : Nat} :
    (∃ s ∈ between cursor start ++ ⟨some owner, start, finish⟩ :: others,
        s.owner = none ∧ s.Holds p) ↔
      (cursor ≤ p ∧ p < start) ∨ ∃ s ∈ others, s.owner = none ∧ s.Holds p := by
  simp only [List.mem_append, List.mem_cons, or_and_right, exists_or, gap_between_iff]
  simp

/-- A position of a match is in a gap exactly if the groups pass it over. -/
theorem gap_cut_iff (lower : cursor ≤ p) (upper : p < stop)
    (sound : ∀ owner first last, (owner, some (first, last)) ∈ groups → first ≤ last) :
    (∃ s ∈ cut stop cursor groups, s.owner = none ∧ s.Holds p) ↔
      PassedOver (groups.map Prod.snd) p := by
  induction groups generalizing cursor with
  | nil =>
    rw [cut, gap_between_iff]
    simp [PassedOver, lower, upper]
  | cons group rest ih =>
    have others := fun owner first last inside =>
      sound owner first last (List.mem_cons_of_mem group inside)
    obtain ⟨owner, text⟩ := group
    cases text with
    | none => simpa [cut] using ih lower others
    | some text =>
      obtain ⟨first, last⟩ := text
      have proper : first ≤ last := sound owner first last List.mem_cons_self
      have order : cursor ≤ stop := Nat.le_of_lt (Nat.lt_of_le_of_lt lower upper)
      have before := (Piece.clamp_bounds order first).2
      have start := Piece.clamp_eq order first
      have finish := Piece.clamp_eq before last
      rw [cut, List.map_cons, passedOver_some, gap_some_iff]
      split
      · rename_i reaches
        -- What is left after this group begins behind the position.
        have behind : p < Piece.clamp last (Piece.clamp first cursor stop) stop := by
          dsimp only at reaches
          omega
        have none_ : ¬ ∃ s ∈ cut stop (Piece.clamp last (Piece.clamp first cursor stop) stop) rest,
            s.owner = none ∧ s.Holds p := by
          rintro ⟨s, member, _, holds⟩
          exact not_holds_of_cut (Piece.clamp_bounds before last).2 behind member holds
        rw [or_iff_left none_]
        dsimp only
        omega
      · rename_i ends
        have passed : Piece.clamp last (Piece.clamp first cursor stop) stop ≤ p := by
          dsimp only at ends
          omega
        rw [ih passed others, or_iff_right]
        omega

end Share

namespace Match

variable {m : Match} {line : Line} {b : Nat}

/-- A byte of the line is in a part of the match that is left as a gap. -/
def InGap (m : Match) (line : Line) (b : Nat) : Prop :=
  ∃ s ∈ m.shares, s.owner = none ∧ (s.along line.offset).Holds b

theorem inGap_iff (inside : m.stop ≤ line.size)
    (sound : ∀ first last, some (first, last) ∈ m.groups → first ≤ last)
    (lower : line.offset m.start ≤ b) (upper : b < line.offset m.stop) :
    m.InGap line b ↔ PassedOver (m.texts line) b := by
  have proper : ∀ g first last, (g, some (first, last)) ∈ Share.numbered (m.texts line) →
      first ≤ last := by
    intro g first last member
    have text := List.mem_of_getElem? (Share.getElem?_of_mem_numbered member)
    obtain ⟨group, named, same⟩ := List.mem_map.mp text
    obtain ⟨⟨i, j⟩, rfl, ends⟩ := Option.map_eq_some_iff.mp same
    obtain ⟨rfl, rfl⟩ := Prod.mk.inj ends
    exact line.offset_mono (sound i j named)
  have texts : (Share.numbered (m.texts line)).map Prod.snd = m.texts line :=
    List.map_snd_zip (Nat.le_of_eq List.length_range.symm)
  have cut := Share.gap_cut_iff lower upper proper
  rw [texts, ← Match.shares_bytes inside] at cut
  rw [← cut, InGap]
  simp [Share.along]

end Match

/-- A byte that a group rule matches is left as a gap exactly if the groups pass it over. It is left as a
gap if no group holds it, and only then if none begins after it with a smaller number than one that holds
it. -/
theorem RuleSet.loaded_gaps [RegexEngine] {set : RuleSet} {x : Lexicon} (loaded : set.load.2 = .ok x) {id : StateId}
    {rule : Lexicon.Rule} (member : rule ∈ (x.state id).rules) {kinds : List String}
    (tokens : rule.tokens = .groups kinds) {line : Line} {i : Nat} {m : Match}
    (matched : rule.pattern.matchAt? line i = some m) (gap : String) :
    Piece.ofMatch rule.tokens m gap = m.shares.map (Share.piece kinds gap) ∧
      ∀ b, line.offset m.start ≤ b → b < line.offset m.stop →
        (m.InGap line b ↔ PassedOver (m.texts line) b) ∧
          (m.InGap line b ∨ Held (m.texts line) b) ∧
          (InOrderAt (m.texts line) b → (m.InGap line b ↔ ¬ Held (m.texts line) b)) := by
  obtain ⟨_, length⟩ := load_tokened loaded id rule member kinds tokens
  obtain ⟨_, inside, texts⟩ := Pattern.bounds _ matched
  have count : kinds.length = m.groups.length := length.trans (Pattern.length_groups _ matched).symm
  refine ⟨tokens ▸ Match.ofMatch_eq_shares count gap, fun b lower upper => ?_⟩
  have passed := Match.inGap_iff inside (fun first last has => (texts first last has).1) lower upper
  rw [passed]
  refine ⟨Iff.rfl, ?_, fun inOrder => ⟨not_held_of_passedOver inOrder, passedOver_of_not_held⟩⟩
  by_cases held : Held (m.texts line) b
  · exact .inr held
  · exact .inl (passedOver_of_not_held held)

def RuleSet.foresight : RuleSet :=
  RuleSet.empty.withState "start" [Rule.groups ["second", "both"] "(?=.(b))(ab)"]

theorem RuleSet.foresight_matches :
    ∃ x rule, foresight.load.2 = .ok x ∧ rule ∈ (x.state ⟨0⟩).rules ∧
      rule.tokens = .groups ["second", "both"] ∧
      rule.pattern.matchAt? (.ofString "ab") 0 = some ⟨0, 2, [some (1, 2), some (0, 2)]⟩ := by
  have found : foresight.load.2.toOption.bind (fun x => (x.state ⟨0⟩).rules[0]?.map (fun rule =>
      (rule.tokens, rule.pattern.matchAt? (.ofString "ab") 0))) =
      some (.groups ["second", "both"], some ⟨0, 2, [some (1, 2), some (0, 2)]⟩) := by cbv
  obtain ⟨x, loaded, found⟩ := Option.bind_eq_some_iff.mp found
  obtain ⟨rule, first, same⟩ := Option.map_eq_some_iff.mp found
  obtain ⟨tokens, matched⟩ := Prod.mk.inj same
  exact ⟨x, rule, load_of_toOption loaded, Array.mem_of_getElem? first, tokens, matched⟩

theorem RuleSet.foresight_gaps :
    ∃ x rule, foresight.load.2 = .ok x ∧ rule ∈ (x.state ⟨0⟩).rules ∧
      rule.tokens = .groups ["second", "both"] ∧
      let line := Line.ofString "ab"
      let m : Match := ⟨0, 2, [some (1, 2), some (0, 2)]⟩
      rule.pattern.matchAt? line 0 = some m ∧
        Piece.ofMatch rule.tokens m "text" = m.shares.map (Share.piece ["second", "both"] "text") ∧
        line.offset m.start ≤ 1 ∧ 1 < line.offset m.stop ∧ InOrderAt (m.texts line) 1 ∧
        (m.InGap line 1 ↔ PassedOver (m.texts line) 1) ∧
        (m.InGap line 1 ∨ Held (m.texts line) 1) ∧ (m.InGap line 1 ↔ ¬ Held (m.texts line) 1) := by
  obtain ⟨x, rule, loaded, member, tokens, matched⟩ := foresight_matches
  obtain ⟨pieces, bytes⟩ := loaded_gaps loaded member tokens matched "text"
  have lower : (Line.ofString "ab").offset 0 ≤ 1 := by decide
  have upper : 1 < (Line.ofString "ab").offset 2 := by decide
  have inOrder : InOrderAt (Match.texts ⟨0, 2, [some (1, 2), some (0, 2)]⟩ (.ofString "ab")) 1 := by
    unfold InOrderAt
    decide
  obtain ⟨passed, some_, gaps⟩ := bytes 1 lower upper
  exact ⟨x, rule, loaded, member, tokens, matched, pieces, lower, upper, inOrder, passed, some_,
    gaps inOrder⟩

/-- The first byte is left as a gap, although it is in the text of the second group. -/
theorem RuleSet.foresight_gap_held :
    ∃ x rule m, foresight.load.2 = .ok x ∧ rule ∈ (x.state ⟨0⟩).rules ∧
      rule.tokens = .groups ["second", "both"] ∧
      rule.pattern.matchAt? (.ofString "ab") 0 = some m ∧
      ¬ ∀ b, (Line.ofString "ab").offset m.start ≤ b → b < (Line.ofString "ab").offset m.stop →
        (m.InGap (.ofString "ab") b ↔ ¬ Held (m.texts (.ofString "ab")) b) := by
  obtain ⟨x, rule, loaded, member, tokens, matched⟩ := foresight_matches
  refine ⟨x, rule, _, loaded, member, tokens, matched, fun law => ?_⟩
  have gap : Match.InGap ⟨0, 2, [some (1, 2), some (0, 2)]⟩ (.ofString "ab") 0 :=
    ⟨⟨none, 0, 1⟩, by decide, rfl, by decide, by decide⟩
  have held : Held (Match.texts ⟨0, 2, [some (1, 2), some (0, 2)]⟩ (.ofString "ab")) 0 :=
    ⟨0, 2, by decide, by decide, by decide⟩
  exact (law 0 (by decide) (by decide)).mp gap held

example :
    RuleSet.foresight.load.2.toOption.map (fun x =>
      (Tokenizer.line ⟨x, {}⟩ (.ofRoot ⟨0⟩) "ab").tokens.map (fun t => (t.kind, t.value))) =
        some [("text", "a"), ("second", "b"), ("both", "")] := by
  cbv

end StackLexer
