import StackLexer.Proofs.Lexing.Tiling

/-! How a match is shared out among its groups.
Each part of a match is taken for one of the groups or left as a gap, going once over the groups in the
order of their numbers. The parts cover the match and there is one for each group, whether or not the
texts of the groups overlap, come in another order or lie outside the match; it makes no difference
whether positions or bytes are counted. -/

namespace StackLexer

theorem Piece.clamp_eq {low high : Nat} (order : low ≤ high) (n : Nat) :
    Piece.clamp n low high = max low (min n high) := by
  unfold Piece.clamp
  split
  · omega
  · split <;> omega

/-- A part of a match. Its owner is the group for which it is taken; a gap has none. -/
structure Share (α : Type) where
  owner : Option α
  start : Nat
  stop : Nat
  deriving DecidableEq, Repr

namespace Share

variable {α β : Type}

def extent (s : Share α) : Nat × Nat := (s.start, s.stop)

def Holds (s : Share α) (p : Nat) : Prop := s.start ≤ p ∧ p < s.stop

def map (f : α → β) (s : Share α) : Share β := ⟨s.owner.map f, s.start, s.stop⟩

def along (f : Nat → Nat) (s : Share α) : Share α := ⟨s.owner, f s.start, f s.stop⟩

def kind (kinds : List String) (gap : String) (s : Share Nat) : String :=
  (s.owner.map (kinds.getD · gap)).getD gap

def piece (kinds : List String) (gap : String) (s : Share Nat) : Piece :=
  ⟨s.kind kinds gap, s.start, s.stop, true⟩

def between (start stop : Nat) : List (Share α) :=
  if start < stop then [⟨none, start, stop⟩] else []

/-- The parts of a match that ends at `stop`, from a cursor on. The groups have their texts with them. -/
def cut (stop cursor : Nat) : List (α × Option (Nat × Nat)) → List (Share α)
  | [] => between cursor stop
  | (owner, none) :: rest => ⟨some owner, cursor, cursor⟩ :: cut stop cursor rest
  | (owner, some (first, last)) :: rest =>
    let start := Piece.clamp first cursor stop
    let finish := Piece.clamp last start stop
    between cursor start ++ ⟨some owner, start, finish⟩ :: cut stop finish rest

def numbered (texts : List (Option (Nat × Nat))) : List (Nat × Option (Nat × Nat)) :=
  (List.range texts.length).zip texts

/-- A part that a group may have. If the group has no text, or one that lies elsewhere, it is empty. -/
def Fits (s : Share α) : Option (Nat × Nat) → Prop
  | none => s.start = s.stop
  | some (first, last) => s.start = s.stop ∨ first ≤ s.start ∧ s.stop ≤ last

/-- The parts are those of a match from `start` to `stop` whose groups have the given texts. -/
structure Partition (texts : List (Option (Nat × Nat))) (start stop : Nat)
    (shares : List (Share Nat)) : Prop where
  tiles : Tiles start (shares.map extent) stop
  owners : shares.filterMap owner = List.range texts.length
  fits : ∀ s ∈ shares, ∀ g text, s.owner = some g → texts[g]? = some text → s.Fits text
  gaps : ∀ s ∈ shares, s.owner = none → s.start < s.stop
  /-- What is in the text of no group is in a gap. -/
  uncovered : ∀ p, start ≤ p → p < stop →
    (∀ first last, some (first, last) ∈ texts → ¬ (first ≤ p ∧ p < last)) →
      ∃ s ∈ shares, s.owner = none ∧ s.Holds p

variable {stop cursor : Nat} {groups : List (α × Option (Nat × Nat))}

theorem eq_of_mem_between {start : Nat} {s : Share α} (member : s ∈ between start stop) :
    s = ⟨none, start, stop⟩ ∧ start < stop := by
  unfold between at member
  split at member
  · rename_i some_
    exact ⟨List.mem_singleton.mp member, some_⟩
  · simp at member

@[simp] theorem filterMap_owner_between (start stop : Nat) :
    (between start stop : List (Share α)).filterMap owner = [] := by
  unfold between
  split <;> rfl

@[simp] theorem map_between (f : α → β) (start stop : Nat) :
    (between start stop).map (map f) = between start stop := by
  unfold between
  split <;> rfl

theorem ofGroups_eq_cut (gap : String) (stop cursor : Nat)
    (groups : List (String × Option (Nat × Nat))) :
    Piece.ofGroups gap stop cursor groups =
      (cut stop cursor groups).map (fun s => ⟨s.owner.getD gap, s.start, s.stop, true⟩) := by
  induction groups generalizing cursor with
  | nil =>
    simp only [Piece.ofGroups, cut, Share.between]
    split <;> rfl
  | cons group rest ih =>
    obtain ⟨kind, text⟩ := group
    cases text with
    | none => simp [Piece.ofGroups, cut, ih]
    | some text =>
      simp only [Piece.ofGroups, cut, Share.between, ih]
      split <;> rfl

theorem cut_map (f : α → β) (stop cursor : Nat) (groups : List (α × Option (Nat × Nat))) :
    cut stop cursor (groups.map (Prod.map f id)) = (cut stop cursor groups).map (map f) := by
  induction groups generalizing cursor with
  | nil => simp [cut]
  | cons group rest ih =>
    obtain ⟨owner, text⟩ := group
    cases text with
    | none => simp [cut, ih, map]
    | some text => simp [cut, ih, map]

theorem tiles_cut (order : cursor ≤ stop) (groups : List (α × Option (Nat × Nat))) :
    Tiles cursor ((cut stop cursor groups).map extent) stop := by
  have tiles := Piece.tiles_ofGroups "" order (groups.map (Prod.map (fun _ => "") id))
  rw [ofGroups_eq_cut, cut_map, List.map_map, List.map_map] at tiles
  exact tiles

theorem owners_cut (stop cursor : Nat) (groups : List (α × Option (Nat × Nat))) :
    (cut stop cursor groups).filterMap owner = groups.map Prod.fst := by
  induction groups generalizing cursor with
  | nil => simp [cut]
  | cons group rest ih =>
    obtain ⟨owner, text⟩ := group
    cases text with
    | none => simp [cut, ih]
    | some text => simp [cut, ih]

theorem kinds_of_owned (kinds : List String) (gap : String) (shares : List (Share Nat)) :
    (shares.filter (fun s => s.owner.isSome)).map (kind kinds gap) =
      (shares.filterMap owner).map (kinds.getD · gap) := by
  induction shares with
  | nil => rfl
  | cons s rest ih =>
    obtain ⟨owner, start, stop⟩ := s
    cases owner with
    | none => simpa using ih
    | some g => simpa [kind] using ih

theorem gaps_cut {s : Share α} (member : s ∈ cut stop cursor groups) (none_ : s.owner = none) :
    s.start < s.stop := by
  induction groups generalizing cursor with
  | nil =>
    obtain ⟨rfl, some_⟩ := eq_of_mem_between member
    exact some_
  | cons group rest ih =>
    obtain ⟨owner, text⟩ := group
    cases text with
    | none =>
      rcases List.mem_cons.mp member with rfl | later
      · simp at none_
      · exact ih later
    | some text =>
      rcases List.mem_append.mp member with before | member
      · obtain ⟨rfl, some_⟩ := eq_of_mem_between before
        exact some_
      · rcases List.mem_cons.mp member with rfl | later
        · simp at none_
        · exact ih later

theorem fits_clamp (order : cursor ≤ stop) (owner : α) (first last : Nat) :
    let start := Piece.clamp first cursor stop
    (⟨some owner, start, Piece.clamp last start stop⟩ : Share α).Fits (some (first, last)) := by
  intro start
  have first_ : start = max cursor (min first stop) := Piece.clamp_eq order first
  have last_ : Piece.clamp last start stop = max start (min last stop) :=
    Piece.clamp_eq (Piece.clamp_bounds order first).2 last
  simp only [Fits, last_]
  omega

theorem fits_cut (order : cursor ≤ stop) {s : Share α} (member : s ∈ cut stop cursor groups)
    {owner : α} (owned : s.owner = some owner) : ∃ text, (owner, text) ∈ groups ∧ s.Fits text := by
  induction groups generalizing cursor with
  | nil =>
    obtain ⟨rfl, _⟩ := eq_of_mem_between member
    simp at owned
  | cons group rest ih =>
    obtain ⟨name, text⟩ := group
    cases text with
    | none =>
      rcases List.mem_cons.mp member with rfl | later
      · obtain rfl := Option.some.inj owned
        exact ⟨none, List.mem_cons_self, rfl⟩
      · obtain ⟨text, inside, fits⟩ := ih order later
        exact ⟨text, List.mem_cons_of_mem _ inside, fits⟩
    | some text =>
      obtain ⟨first, last⟩ := text
      rcases List.mem_append.mp member with before | member
      · obtain ⟨rfl, _⟩ := eq_of_mem_between before
        simp at owned
      · rcases List.mem_cons.mp member with rfl | later
        · obtain rfl := Option.some.inj owned
          exact ⟨some (first, last), List.mem_cons_self, fits_clamp order _ first last⟩
        · have before := (Piece.clamp_bounds order first).2
          obtain ⟨text, inside, fits⟩ := ih (Piece.clamp_bounds before last).2 later
          exact ⟨text, List.mem_cons_of_mem _ inside, fits⟩

theorem getElem?_of_mem_numbered {texts : List (Option (Nat × Nat))} {g : Nat}
    {text : Option (Nat × Nat)} (member : (g, text) ∈ numbered texts) : texts[g]? = some text := by
  obtain ⟨i, at_⟩ := List.mem_iff_getElem?.mp member
  obtain ⟨number, same⟩ := List.getElem?_zip_eq_some.mp at_
  obtain ⟨bound, _⟩ := List.getElem?_eq_some_iff.mp same
  rw [List.getElem?_range bound] at number
  obtain rfl : i = g := Option.some.inj number
  exact same

/-- The parts of a match are a partition of it, whatever texts the groups have. -/
theorem partition_cut {start : Nat} (order : start ≤ stop) (texts : List (Option (Nat × Nat))) :
    Partition texts start stop (cut stop start (numbered texts)) := by
  have tiles := tiles_cut order (numbered texts)
  have fits : ∀ s ∈ cut stop start (numbered texts), ∀ g text, s.owner = some g →
      texts[g]? = some text → s.Fits text := by
    intro s member g text owned has
    obtain ⟨text', named, fits⟩ := fits_cut order member owned
    obtain rfl := Option.some.inj ((getElem?_of_mem_numbered named).symm.trans has)
    exact fits
  refine ⟨tiles, ?_, fits, fun s member => gaps_cut member, fun p lower upper free => ?_⟩
  · rw [owners_cut, numbered, List.map_fst_zip (Nat.le_of_eq List.length_range)]
  · obtain ⟨_, member, holds⟩ := tiles.covers lower upper
    obtain ⟨s, inside, rfl⟩ := List.mem_map.mp member
    refine ⟨s, inside, ?_, holds⟩
    -- A part with an owner that holds anything is in the text of its group.
    cases owned : s.owner with
    | none => rfl
    | some g =>
      obtain ⟨text, named, fits⟩ := fits_cut order inside owned
      have has := List.mem_of_getElem? (getElem?_of_mem_numbered named)
      simp only [extent] at holds
      cases text with
      | none =>
        have empty : s.start = s.stop := fits
        omega
      | some text =>
        rcases fits with empty | ⟨after, before⟩
        · omega
        · exact absurd ⟨by omega, by omega⟩ (free text.1 text.2 has)

section Units

variable {f : Nat → Nat}

theorem clamp_along (mono : ∀ i j, i ≤ j → f i ≤ f j) {low high : Nat} (order : low ≤ high)
    (n : Nat) : Piece.clamp (f n) (f low) (f high) = f (Piece.clamp n low high) := by
  have ordered := mono low high order
  rw [Piece.clamp_eq order, Piece.clamp_eq ordered]
  rcases Nat.le_total n low with below | above
  · have := mono n low below
    rw [Nat.max_eq_left (Nat.le_trans (Nat.min_le_left n high) below)]
    omega
  · have := mono low n above
    rcases Nat.le_total n high with inside | beyond
    · have := mono n high inside
      rw [Nat.min_eq_left inside, Nat.max_eq_right above]
      omega
    · have := mono high n beyond
      rw [Nat.min_eq_right beyond, Nat.max_eq_right order]
      omega

theorem between_along {start : Nat} (mono : ∀ i j, i ≤ j → f i ≤ f j)
    (strict : ∀ i j, i < j → i < stop → f i < f j) :
    (between (f start) (f stop) : List (Share α)) = (between start stop).map (along f) := by
  unfold between
  by_cases some_ : start < stop
  · rw [if_pos some_, if_pos (strict start stop some_ some_)]
    rfl
  · rw [if_neg some_, if_neg (Nat.not_lt.mpr (mono stop start (Nat.not_lt.mp some_)))]
    rfl

/-- A match is cut at the same places when its positions are counted in another unit. -/
theorem cut_along (mono : ∀ i j, i ≤ j → f i ≤ f j)
    (strict : ∀ i j, i < j → i < stop → f i < f j) (order : cursor ≤ stop)
    (groups : List (α × Option (Nat × Nat))) :
    cut (f stop) (f cursor) (groups.map (Prod.map id (Option.map (Prod.map f f)))) =
      (cut stop cursor groups).map (along f) := by
  induction groups generalizing cursor with
  | nil => exact between_along mono strict
  | cons group rest ih =>
    obtain ⟨owner, text⟩ := group
    cases text with
    | none => simp [cut, ih order, along]
    | some text =>
      obtain ⟨first, last⟩ := text
      have before := (Piece.clamp_bounds order first).2
      have start := clamp_along mono order first
      have finish := clamp_along mono before last
      have later := ih (Piece.clamp_bounds before last).2
      have open_ : (between (f cursor) (f (Piece.clamp first cursor stop)) : List (Share α)) = _ :=
        between_along mono (fun i j less inside => strict i j less (Nat.lt_of_lt_of_le inside before))
      simp only [List.map_cons, Prod.map, Option.map_some, cut, start, finish, open_, later,
        List.map_append, id, along]

end Units

end Share

namespace Match

def shares (m : Match) : List (Share Nat) := Share.cut m.stop m.start (Share.numbered m.groups)

theorem map_getD_range (kinds : List String) (gap : String) :
    (List.range kinds.length).map (kinds.getD · gap) = kinds := by
  refine List.ext_getElem (by simp) (fun i bound _ => ?_)
  have bound : i < kinds.length := by simpa using bound
  simp [List.getD_eq_getElem?_getD, bound]

theorem ofMatch_eq_shares {m : Match} {kinds : List String} (count : kinds.length = m.groups.length)
    (gap : String) :
    Piece.ofMatch (.groups kinds) m gap = m.shares.map (Share.piece kinds gap) := by
  have named : kinds.zip m.groups = (Share.numbered m.groups).map (Prod.map (kinds.getD · gap) id) := by
    rw [Share.numbered, ← List.zip_map_left, ← count, map_getD_range]
  rw [Piece.ofMatch, Share.ofGroups_eq_cut, named, Share.cut_map, List.map_map]
  rfl

def texts (m : Match) (line : Line) : List (Option (Nat × Nat)) :=
  m.groups.map (Option.map (Prod.map line.offset line.offset))

theorem shares_bytes {m : Match} {line : Line} (inside : m.stop ≤ line.size) :
    m.shares.map (Share.along line.offset) =
      Share.cut (line.offset m.stop) (line.offset m.start) (Share.numbered (m.texts line)) := by
  have mono : ∀ i j, i ≤ j → line.offset i ≤ line.offset j := fun _ _ => line.offset_mono
  have strict : ∀ i j, i < j → i < m.stop → line.offset i < line.offset j :=
    fun i j less below => line.offset_lt less (Nat.lt_of_lt_of_le below inside)
  have texts : Share.numbered (m.texts line) =
      (Share.numbered m.groups).map (Prod.map id (Option.map (Prod.map line.offset line.offset))) := by
    rw [Share.numbered, Share.numbered, Match.texts, List.length_map, List.zip_map_right]
  rw [texts, Share.cut_along mono strict m.start_le_stop]
  rfl

/-- The pieces of a match are its parts, each of the kind of its group or of the kind of gaps, and the
parts are a partition of the match, for any texts of the groups. The tokens that a line gives these
pieces are the same partition in bytes. -/
theorem shared_out {m : Match} {kinds : List String} (count : kinds.length = m.groups.length)
    (gap : String) :
    let pieces := Piece.ofMatch (.groups kinds) m gap
    pieces = m.shares.map (Share.piece kinds gap) ∧
      (m.shares.filter (fun s => s.owner.isSome)).map (Share.kind kinds gap) = kinds ∧
      Share.Partition m.groups m.start m.stop m.shares ∧
      ∀ line : Line, m.stop ≤ line.size →
        let bytes := m.shares.map (Share.along line.offset)
        (pieces.map (Piece.token line)).map (fun t => (t.kind, t.span)) =
            bytes.map (fun s => (s.kind kinds gap, ⟨s.start, s.stop⟩)) ∧
          Share.Partition (m.texts line) (line.offset m.start) (line.offset m.stop) bytes := by
  intro pieces
  have pieces_ : pieces = m.shares.map (Share.piece kinds gap) := ofMatch_eq_shares count gap
  have whole := Share.partition_cut m.start_le_stop m.groups
  refine ⟨pieces_, ?_, whole, fun line inside => ⟨?_, ?_⟩⟩
  · rw [Share.kinds_of_owned, shares, whole.owners, ← count, map_getD_range]
  · rw [pieces_, List.map_map, List.map_map, List.map_map]
    rfl
  · rw [shares_bytes inside]
    exact Share.partition_cut (line.offset_mono m.start_le_stop) (m.texts line)

theorem shared_out_crossed :
    let m : Match := ⟨0, 2, [some (1, 2), none, some (0, 3)]⟩
    let kinds := ["late", "absent", "whole"]
    let pieces := Piece.ofMatch (.groups kinds) m "text"
    let line := Line.ofString "éb!"
    let bytes := m.shares.map (Share.along line.offset)
    kinds.length = m.groups.length ∧ m.stop ≤ line.size ∧
      pieces = m.shares.map (Share.piece kinds "text") ∧
      (m.shares.filter (fun s => s.owner.isSome)).map (Share.kind kinds "text") = kinds ∧
      Share.Partition m.groups m.start m.stop m.shares ∧
      (pieces.map (Piece.token line)).map (fun t => (t.kind, t.span)) =
        bytes.map (fun s => (s.kind kinds "text", ⟨s.start, s.stop⟩)) ∧
      Share.Partition (m.texts line) (line.offset m.start) (line.offset m.stop) bytes := by
  intro m kinds pieces line bytes
  have inside : m.stop ≤ line.size := by decide
  have count : kinds.length = m.groups.length := rfl
  obtain ⟨pieces_, kinds_, whole, tokens⟩ := shared_out count "text"
  exact ⟨count, inside, pieces_, kinds_, whole, tokens line inside⟩

/-- The last group has the whole match for its text, but what lies before the text of the first one is
a gap, and nothing is left behind that text. -/
example :
    (⟨0, 2, [some (1, 2), none, some (0, 3)]⟩ : Match).shares =
      [⟨none, 0, 1⟩, ⟨some 0, 1, 2⟩, ⟨some 1, 2, 2⟩, ⟨some 2, 2, 2⟩] := by
  decide

end Match

end StackLexer
