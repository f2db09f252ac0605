import Mathlib
import StackLexer.Proofs.Grammar.DeedOrder
import StackLexer.Regex.Engine

/-! How much is done in a load.
Includes may go round and pushed lists may come to themselves again, but each list is gone through once at
most and the pushed ones without room once together. A cycle that is reported is cut off at the place where the
state that is asked for again stands on the path. -/

namespace StackLexer

namespace RuleSet

variable {set : RuleSet} {deeds : List Deed}

def isBare (set : RuleSet) (place : Place) : Bool := !place.path.isEmpty && !set.hasRoom place

structure Bounded (set : RuleSet) (deeds : List Deed) : Prop where
  written : ∀ place ∈ placesRead deeds, (set.listAt? place).isSome
  /-- Each list is gone through once at most. -/
  once : ∀ place, (placesRead deeds).count place ≤ 1
  /-- So are all pushed lists without room together. -/
  bare : (placesRead deeds).countP set.isBare ≤ 1
  /-- These are all the empty ones, unless room was made in some. -/
  empty : set.reserved = [] → (placesRead deeds).countP
    (fun place => !place.path.isEmpty && (set.entriesAt place).isEmpty) ≤ 1
  lists : (placesRead deeds).length ≤ set.names.length + set.pushedKeys.length
  reading : ∀ path place, .reads path place ∈ deeds → path.Nodup
  returning : ∀ path name, .returns path name ∈ deeds → path.Nodup
  /-- A list is opened at each level within those that have been opened. -/
  levels : ∀ before levels key after, deeds = before ++ .opens levels key :: after →
    levels.Nodup ∧ levels ⊆ keysOpened before ∧ key ∉ keysOpened before
  depth : ∀ levels key, .opens levels key ∈ deeds → levels.length < set.pushedKeys.length

namespace Orderly

theorem written (orderly : set.Orderly [] deeds) {place : Place} (read : place ∈ placesRead deeds) :
    (set.listAt? place).isSome := by
  obtain ⟨deed, inside, reads⟩ := List.mem_filterMap.mp read
  obtain ⟨earlier, follows⟩ := orderly.of_mem inside
  cases deed with
  | reads path place' =>
    obtain rfl := Option.some.inj reads
    exact follows.2.1
  | _ => simp [Deed.placeRead?] at reads

theorem nodup (orderly : set.Orderly [] deeds) : (set.keysRead deeds).Nodup :=
  orderly.nodup_keysRead .nil

theorem keyAt_of_isBare (orderly : set.Orderly [] deeds) {place : Place}
    (read : place ∈ placesRead deeds) (bare : set.isBare place) : set.keyAt place = .emptyList := by
  have both : place.path ≠ [] ∧ ¬ set.hasRoom place := by simpa [isBare] using bare
  have pushed : place ∈ set.pushPlaces :=
    mem_pushPlaces_iff.mpr ⟨both.1, Option.isSome_iff_exists.mp (orderly.written read)⟩
  rw [keyAt_of_mem_pushPlaces pushed, if_neg both.2]

theorem bare_le_one (orderly : set.Orderly [] deeds) :
    (placesRead deeds).countP set.isBare ≤ 1 :=
  calc (placesRead deeds).countP set.isBare
    _ ≤ (placesRead deeds).countP ((· == .emptyList) ∘ set.keyAt) := by
      apply List.countP_mono_left
      intro place read bare
      simpa using orderly.keyAt_of_isBare read bare
    _ = (set.keysRead deeds).count .emptyList := List.countP_map.symm
    _ ≤ 1 := List.nodup_iff_count_le_one.mp orderly.nodup .emptyList

theorem keysRead_subset (orderly : set.Orderly [] deeds) :
    set.keysRead deeds ⊆ set.names.map (fun name => .list ⟨name, []⟩) ++ set.pushedKeys := by
  intro key member
  obtain ⟨place, read, rfl⟩ := List.mem_map.mp member
  obtain ⟨entries, found⟩ := Option.isSome_iff_exists.mp (orderly.written read)
  obtain ⟨name, path⟩ := place
  cases path with
  | nil =>
    rw [listAt?_state] at found
    exact List.mem_append_left _ (List.mem_map.mpr ⟨name, mem_names found, rfl⟩)
  | cons i path =>
    have pushed := mem_pushPlaces_iff.mpr ⟨List.cons_ne_nil i path, entries, found⟩
    exact List.mem_append_right _ (mem_pushedKeys.mpr ⟨_, pushed, rfl⟩)

theorem lists (orderly : set.Orderly [] deeds) :
    (placesRead deeds).length ≤ set.names.length + set.pushedKeys.length := by
  have fewer := (orderly.nodup.subperm orderly.keysRead_subset).length_le
  simpa [keysRead] using fewer

theorem levels_lt {before after : List Deed} {levels : List PushKey} {key : PushKey}
    (orderly : set.Orderly [] (before ++ .opens levels key :: after)) :
    levels.length < set.pushedKeys.length := by
  obtain ⟨distinct, around, new, pushed⟩ := orderly.at
  have opened := (orderly_append.mp orderly).1.keysOpened_subset
  have nodup : (key :: levels).Nodup := List.nodup_cons.mpr ⟨fun level => new (around level), distinct⟩
  have subset : key :: levels ⊆ set.pushedKeys :=
    List.cons_subset.mpr ⟨pushed, fun _ level => opened (around level)⟩
  exact (nodup.subperm subset).length_le

theorem bounded (orderly : set.Orderly [] deeds) : set.Bounded deeds where
  written := fun place read => orderly.written read
  once := List.nodup_iff_count_le_one.mp (List.Nodup.of_map _ orderly.nodup)
  bare := orderly.bare_le_one
  empty := by
    intro plain
    have same : set.isBare = fun place => !place.path.isEmpty && (set.entriesAt place).isEmpty := by
      funext place
      rw [isBare, hasRoom_of_reserved_nil plain, Bool.not_not]
    exact same ▸ orderly.bare_le_one
  lists := orderly.lists
  reading := by
    intro path place inside
    obtain ⟨earlier, follows⟩ := orderly.of_mem inside
    exact follows.1
  returning := by
    intro path name inside
    obtain ⟨earlier, follows⟩ := orderly.of_mem inside
    exact follows.1
  levels := by
    rintro before levels key after rfl
    obtain ⟨distinct, around, new, _⟩ := orderly.at
    exact ⟨distinct, around, new⟩
  depth := by
    intro levels key inside
    obtain ⟨before, after, rfl⟩ := List.append_of_mem inside
    exact orderly.levels_lt

end Orderly

section

variable [RegexEngine]

/-- The states of a cycle that is reported include one another, also where the first of them is included
from a pushed list. The cycle begins where the state that is asked for again stands on the path, and it
stands there whenever a state is asked for that is underway. -/
theorem reported_cycle (set : RuleSet) :
    set.loading.2 = set.load.2 ∧
      (∀ cycle, set.load.2 = .error (.circularInclude cycle) → set.IncludeCycle cycle ∧
        ∃ path name i, .returns path name ∈ set.loading.1 ∧ path.idxOf? name = some i ∧
          cycle = path.drop i ++ [name]) ∧
      ∀ path name, .returns path name ∈ set.loading.1 → ∃ i, path.idxOf? name = some i := by
  have conduct := set.loading_conduct
  have stands (path : List String) (name : String) (asked : .returns path name ∈ set.loading.1) :
      ∃ i, path.idxOf? name = some i := by
    obtain ⟨earlier, follows⟩ := conduct.orderly.of_mem asked
    exact Option.isSome_iff_exists.mp (List.isSome_idxOf?.mpr follows.2)
  refine ⟨rfl, fun cycle failed => ⟨load_error failed, ?_⟩, stands⟩
  obtain ⟨path, name, asked, same⟩ := conduct.cycle cycle failed
  obtain ⟨i, found⟩ := stands path name asked
  rw [found, Option.getD_some] at same
  exact ⟨path, name, i, asked, found, same⟩

end

def knot : RuleSet :=
  RuleSet.empty
    |>.withState "a" [(Rule.single "open" "\\(").withPush [Rule.including "b"]]
    |>.withState "b" [Rule.including "c"]
    |>.withState "c" [Rule.including "b"]
    |>.withState "start" []

theorem knot_reported_cycle :
    knot.loading.1 = [.reads ["a"] ⟨"a", []⟩, .opens [] (.list ⟨"a", [0]⟩), .reads [] ⟨"a", [0]⟩,
        .reads ["b"] ⟨"b", []⟩, .reads ["b", "c"] ⟨"c", []⟩, .returns ["b", "c"] "b"] ∧
      knot.load.2 = .error (.circularInclude ["b", "c", "b"]) ∧
      knot.IncludeCycle ["b", "c", "b"] := by
  have deeds : knot.loading.1 = [.reads ["a"] ⟨"a", []⟩, .opens [] (.list ⟨"a", [0]⟩),
      .reads [] ⟨"a", [0]⟩, .reads ["b"] ⟨"b", []⟩, .reads ["b", "c"] ⟨"c", []⟩,
      .returns ["b", "c"] "b"] := by cbv
  have failed : knot.load.2 = .error (.circularInclude ["b", "c", "b"]) := by cbv
  exact ⟨deeds, failed, ((reported_cycle knot).2.1 _ failed).1⟩

end RuleSet

end StackLexer
