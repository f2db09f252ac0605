import Mathlib
import StackLexer.Proofs.Grammar.Marks
import StackLexer.Proofs.Grammar.PushPlaces
import StackLexer.Proofs.Grammar.Refusal

/-! The order of what is done in a load.
No list is gone through that has been gone through before, the empty pushed lists counting as one, and a
list that is opened has not been opened before. The marks and the lists opened so far tell what has been
done, whether the load goes on or is refused. -/

namespace StackLexer

namespace Deed

def placeRead? : Deed → Option Place
  | reads _ place => some place
  | _ => none

def keyOpened? : Deed → Option PushKey
  | opens _ key => some key
  | _ => none

end Deed

variable {set : RuleSet}

def placesRead (deeds : List Deed) : List Place := deeds.filterMap Deed.placeRead?

def keysOpened (deeds : List Deed) : List PushKey := deeds.filterMap Deed.keyOpened?

def RuleSet.keysRead (set : RuleSet) (deeds : List Deed) : List PushKey :=
  (placesRead deeds).map set.keyAt

section

variable {before deeds more : List Deed} {deed : Deed} {path : List String} {name : String}
  {place : Place} {levels : List PushKey} {key : PushKey}

@[simp] theorem placesRead_nil : placesRead [] = [] := rfl

@[simp] theorem keysOpened_nil : keysOpened [] = [] := rfl

@[simp] theorem placesRead_append : placesRead (before ++ deeds) = placesRead before ++ placesRead deeds :=
  List.filterMap_append

@[simp] theorem keysOpened_append : keysOpened (before ++ deeds) = keysOpened before ++ keysOpened deeds :=
  List.filterMap_append

@[simp] theorem keysRead_append :
    set.keysRead (before ++ deeds) = set.keysRead before ++ set.keysRead deeds := by
  simp [RuleSet.keysRead]

@[simp] theorem placesRead_reads :
    placesRead (.reads path place :: deeds) = place :: placesRead deeds := rfl

@[simp] theorem placesRead_opens :
    placesRead (.opens levels key :: deeds) = placesRead deeds := rfl

@[simp] theorem placesRead_returns :
    placesRead (.returns path name :: deeds) = placesRead deeds := rfl

@[simp] theorem placesRead_tells {event : Event} :
    placesRead (.tells event :: deeds) = placesRead deeds := rfl

@[simp] theorem keysOpened_reads :
    keysOpened (.reads path place :: deeds) = keysOpened deeds := rfl

@[simp] theorem keysOpened_opens :
    keysOpened (.opens levels key :: deeds) = key :: keysOpened deeds := rfl

@[simp] theorem keysOpened_returns :
    keysOpened (.returns path name :: deeds) = keysOpened deeds := rfl

@[simp] theorem keysOpened_tells {event : Event} :
    keysOpened (.tells event :: deeds) = keysOpened deeds := rfl

/-- What makes a deed a new one after those before it. -/
def Deed.Follows (set : RuleSet) (before : List Deed) : Deed → Prop
  | .reads path place =>
    path.Nodup ∧ (set.listAt? place).isSome ∧ set.keyAt place ∉ set.keysRead before
  | .returns path name => path.Nodup ∧ name ∈ path
  | .opens levels key =>
    levels.Nodup ∧ levels ⊆ keysOpened before ∧ key ∉ keysOpened before ∧ key ∈ set.pushedKeys
  | .tells _ => True

def RuleSet.Orderly (set : RuleSet) (before : List Deed) : List Deed → Prop
  | [] => True
  | deed :: deeds => deed.Follows set before ∧ set.Orderly (before ++ [deed]) deeds

namespace RuleSet

theorem orderly_append :
    set.Orderly before (deeds ++ more) ↔ set.Orderly before deeds ∧ set.Orderly (before ++ deeds) more := by
  induction deeds generalizing before with
  | nil => simp [Orderly]
  | cons deed deeds ih => simp [Orderly, ih, and_assoc]

theorem Orderly.at {after : List Deed} (orderly : set.Orderly before (deeds ++ deed :: after)) :
    deed.Follows set (before ++ deeds) :=
  (orderly_append.mp orderly).2.1

theorem Orderly.of_mem (orderly : set.Orderly before deeds) (member : deed ∈ deeds) :
    ∃ earlier, deed.Follows set earlier := by
  obtain ⟨first, after, rfl⟩ := List.append_of_mem member
  exact ⟨before ++ first, orderly.at⟩

theorem Orderly.nodup_keysRead (orderly : set.Orderly before deeds)
    (nodup : (set.keysRead before).Nodup) : (set.keysRead (before ++ deeds)).Nodup := by
  induction deeds generalizing before with
  | nil => simpa using nodup
  | cons deed deeds ih =>
    obtain ⟨follows, rest⟩ := orderly
    have whole := ih rest
    rw [List.append_assoc] at whole
    apply whole
    rw [keysRead_append]
    cases deed with
    | reads path place =>
      exact List.nodup_append_comm.mp (List.nodup_cons.mpr ⟨follows.2.2, nodup⟩)
    | returns path name => simpa [keysRead] using nodup
    | opens levels key => simpa [keysRead] using nodup
    | tells event => simpa [keysRead] using nodup

theorem Orderly.keysOpened_subset (orderly : set.Orderly before deeds) :
    keysOpened deeds ⊆ set.pushedKeys := by
  intro key member
  obtain ⟨deed, inside, opened⟩ := List.mem_filterMap.mp member
  obtain ⟨earlier, follows⟩ := orderly.of_mem inside
  cases deed with
  | opens levels key' =>
    obtain rfl := Option.some.inj opened
    exact follows.2.2.2
  | _ => simp [Deed.keyOpened?] at opened

end RuleSet

end

/-! ### Where deeds lead -/

/-- What is done on the way to a result, after what has been done before. A cycle is reported where a
state is asked for that is underway. -/
structure Conduct (set : RuleSet) {α : Type} (before : List Deed) (keeps : α → List Deed → Prop)
    (run : List Deed × Except LoadError α) : Prop where
  orderly : set.Orderly before run.1
  keeps : ∀ a, run.2 = .ok a → keeps a (before ++ run.1)
  cycle : ∀ cycle, run.2 = .error (.circularInclude cycle) → ∃ path name, .returns path name ∈ run.1 ∧
    cycle = path.drop ((path.idxOf? name).getD 0) ++ [name]

namespace Conduct

variable {α β : Type} {before deeds more : List Deed} {keeps : α → List Deed → Prop}
  {keeps' : β → List Deed → Prop} {fault : LoadError} {a : α} {result : Except LoadError α}

theorem idle (kept : keeps a before) : Conduct set before keeps ([], .ok a) where
  orderly := trivial
  keeps := by
    rintro _ ⟨⟩
    simpa using kept
  cycle := by simp

theorem refused (other : ∀ cycle, fault ≠ .circularInclude cycle) :
    Conduct set before keeps ([], .error fault) where
  orderly := trivial
  keeps := by simp
  cycle := fun cycle same => absurd (Except.error.inj same) (other cycle)

theorem of_error (conduct : Conduct set before keeps (deeds, .error fault)) :
    Conduct set before keeps' (deeds, .error fault) where
  orderly := conduct.orderly
  keeps := by simp
  cycle := fun cycle same => conduct.cycle cycle (congrArg Except.error (Except.error.inj same))

theorem map (conduct : Conduct set before keeps (deeds, result)) {f : α → β}
    (kept : ∀ a more, keeps a more → keeps' (f a) more) :
    Conduct set before keeps' (deeds, result.map f) := by
  cases result with
  | error fault => exact conduct.of_error
  | ok a =>
    refine ⟨conduct.orderly, ?_, by simp [Except.map]⟩
    rintro _ ⟨⟩
    exact kept a _ (conduct.keeps a rfl)

theorem after {run : List Deed × Except LoadError α} (first : set.Orderly before deeds)
    (conduct : Conduct set (before ++ deeds) keeps run) :
    Conduct set before keeps (deeds ++ run.1, run.2) where
  orderly := RuleSet.orderly_append.mpr ⟨first, conduct.orderly⟩
  keeps := fun a made => List.append_assoc before deeds run.1 ▸ conduct.keeps a made
  cycle := by
    intro cycle failed
    obtain ⟨path, name, returns, same⟩ := conduct.cycle cycle failed
    exact ⟨path, name, List.mem_append_right _ returns, same⟩

theorem tells {run : List Deed × Except LoadError α} {event : Event}
    (conduct : Conduct set (before ++ [.tells event]) keeps run) :
    Conduct set before keeps (.tells event :: run.1, run.2) := by
  have first : set.Orderly before [.tells event] := ⟨trivial, trivial⟩
  exact conduct.after first

end Conduct

namespace Marks

/-- The marks and the lists opened so far tell what has been done. -/
structure Tracks (m : Marks set) (path : List String) (keys : List PushKey) (before : List Deed) : Prop
    extends Coherent m path where
  state : ∀ name, .list ⟨name, []⟩ ∈ set.keysRead before → m.mark name ≠ .untouched
  pushed : ∀ key ∈ set.keysRead before, (∃ name, key = .list ⟨name, []⟩) ∨ key ∈ keys
  opened : ∀ key, key ∈ keysOpened before ↔ key ∈ keys

section

variable {m : Marks set} {path : List String} {keys : List PushKey} {before : List Deed} {name : String}
  {rules : List Rule}

theorem Tracks.follows (tracks : m.Tracks path keys before) (found : set.get? name = some rules)
    (untouched : m.mark name = .untouched) :
    (Deed.reads (m.path ++ [name]) ⟨name, []⟩).Follows set before := by
  have new := tracks.toCoherent.not_mem untouched
  refine ⟨?_, by simp [found], fun again => tracks.state name again untouched⟩
  rw [tracks.along]
  exact (tracks.toCoherent.begin new).distinct

theorem Tracks.begin (tracks : m.Tracks path keys before) (untouched : m.mark name = .untouched) :
    (m.begin name).Tracks (path ++ [name]) keys
      (before ++ [.reads (m.path ++ [name]) ⟨name, []⟩]) := by
  have new := tracks.toCoherent.not_mem untouched
  refine ⟨tracks.toCoherent.begin new, fun other read => ?_, fun key read => ?_, fun key => ?_⟩
  -- Of the states only the one that is begun has been gone through since.
  · rw [mark_begin]
    split
    · simp
    · rename_i same
      apply tracks.state other
      simpa [RuleSet.keysRead, RuleSet.keyAt, same] using read
  · rw [keysRead_append] at read
    rcases List.mem_append.mp read with earlier | here
    · exact tracks.pushed key earlier
    · exact .inl ⟨name, List.mem_singleton.mp here⟩
  · simpa using tracks.opened key

theorem Tracks.finish (tracks : m.Tracks (path ++ [name]) keys before) (e : Expansion set) :
    (m.finish name e).Tracks path keys before := by
  refine ⟨tracks.toCoherent.finish e, fun other read => ?_, tracks.pushed, tracks.opened⟩
  rw [mark_finish]
  split
  · simp
  · exact tracks.state other read

theorem Tracks.tells (tracks : m.Tracks path keys before) (event : Event) :
    m.Tracks path keys (before ++ [.tells event]) where
  toCoherent := tracks.toCoherent
  state := by simpa [RuleSet.keysRead] using tracks.state
  pushed := by simpa [RuleSet.keysRead] using tracks.pushed
  opened := by simpa using tracks.opened

end

mutual

theorem readState_conduct {m : Marks set} {path : List String} {keys : List PushKey}
    {before : List Deed} (tracks : m.Tracks path keys before) (includer : Place) (name : String) :
    Conduct set before (fun r => r.marks.Tracks path keys) (m.readState includer name) := by
  cases found : set.get? name with
  | none =>
    rw [readState_absent found]
    exact .refused (by simp)
  | some rules =>
    cases mark : m.mark name with
    | done e =>
      rw [readState_done found mark]
      exact .idle tracks
    | underway =>
      rw [readState_underway found mark]
      have again : name ∈ m.path := tracks.along ▸ (tracks.underway name).mp mark
      refine ⟨⟨⟨tracks.along ▸ tracks.distinct, again⟩, trivial⟩, by simp, fun cycle same => ?_⟩
      exact ⟨m.path, name, List.mem_singleton_self _, by simpa using same.symm⟩
    | untouched =>
      have fewer := untouched_begin found mark
      have inner := readFrom_conduct (tracks.begin mark) ⟨name, []⟩ 0 rules
        (RuleSet.written_state found)
      rw [readState_untouched found mark]
      have here : set.Orderly before [.reads (m.path ++ [name]) ⟨name, []⟩] :=
        ⟨tracks.follows found mark, trivial⟩
      exact Conduct.after here (inner.map (fun r more kept => kept.finish r.expansion))
termination_by (m.untouched.length, 0)

theorem readFrom_conduct {m : Marks set} {path : List String} {keys : List PushKey}
    {before : List Deed} (tracks : m.Tracks path keys before) (place : Place) (index : Nat)
    (rest : List Rule) (written : (set.listAt? place).map (List.drop index) = some rest) :
    Conduct set before (fun r => r.marks.Tracks path keys) (m.readFrom place index rest written) := by
  cases rest with
  | nil =>
    rw [readFrom]
    exact .idle tracks
  | cons rule rest =>
    cases names : rule.includes with
    | some target =>
      cases alone : rule.includesMore with
      | true =>
        rw [readFrom_includesMore names alone]
        exact .refused (by simp)
      | false =>
        rw [readFrom_including names alone]
        have inner := readState_conduct tracks place target
        generalize m.readState place target = run at inner ⊢
        obtain ⟨deeds, fault | first⟩ := run
        · exact inner.of_error
        · have tail := readFrom_conduct (inner.keeps first rfl) place (index + 1) rest
            (RuleSet.written_tail written)
          exact (tail.after inner.orderly).map (fun r more kept => kept)
    | none =>
      cases gives : rule.defaultToken with
      | some kind =>
        cases alone : rule.defaultsMore with
        | true =>
          rw [readFrom_defaultsMore names gives alone]
          exact .refused (by simp)
        | false =>
          rw [readFrom_default names gives alone]
          have tail := readFrom_conduct tracks place (index + 1) rest (RuleSet.written_tail written)
          exact tail.map (fun r more kept => kept)
      | none =>
        rw [readFrom_matching names gives]
        have tail := readFrom_conduct tracks place (index + 1) rest (RuleSet.written_tail written)
        exact tail.map (fun r more kept => kept)
termination_by (m.untouched.length, rest.length + 1)
decreasing_by
  · decreasing_tactic
  · decreasing_tactic
  · decreasing_tactic
  · exact lex_of_le first.within (by decreasing_tactic)

end

/-! ### Lists that are opened -/

section

variable {m : Marks set} {path : List String} {keys levels : List PushKey} {before : List Deed}
  {place : Place}

theorem keyAt_ne_state (member : place ∈ set.pushPlaces) (name : String) :
    set.keyAt place ≠ .list ⟨name, []⟩ := by
  have long := (RuleSet.listAt?_of_mem_pushPlaces member).1
  rw [RuleSet.keyAt_of_mem_pushPlaces member]
  split
  · rintro ⟨⟩
    exact long rfl
  · simp

theorem Tracks.opening_orderly (tracks : m.Tracks path keys before) (member : place ∈ set.pushPlaces)
    (new : set.keyAt place ∉ keys) (distinct : levels.Nodup) (around : levels ⊆ keys) :
    set.Orderly before [.opens levels (set.keyAt place), .reads m.path place] := by
  have unread : set.keyAt place ∉ set.keysRead before := by
    intro read
    rcases tracks.pushed _ read with ⟨name, same⟩ | old
    · exact keyAt_ne_state member name same
    · exact new old
  have written : (set.listAt? place).isSome :=
    Option.isSome_iff_exists.mpr (RuleSet.listAt?_of_mem_pushPlaces member).2
  refine ⟨⟨distinct, ?_, ?_, ?_⟩, ⟨tracks.along ▸ tracks.distinct, written, ?_⟩, trivial⟩
  · exact fun key level => (tracks.opened key).mpr (around level)
  · rwa [tracks.opened]
  · exact RuleSet.mem_pushedKeys.mpr ⟨place, member, rfl⟩
  · simpa [RuleSet.keysRead] using unread

theorem Tracks.opening (tracks : m.Tracks path keys before) (levels : List PushKey)
    (member : place ∈ set.pushPlaces) :
    m.Tracks path (set.keyAt place :: keys)
      (before ++ [.opens levels (set.keyAt place), .reads m.path place]) := by
  have read : set.keysRead (before ++ [.opens levels (set.keyAt place), .reads m.path place]) =
      set.keysRead before ++ [set.keyAt place] := by
    simp [RuleSet.keysRead]
  refine ⟨tracks.toCoherent, fun name was => ?_, fun key was => ?_, fun key => ?_⟩
  · rw [read] at was
    rcases List.mem_append.mp was with earlier | here
    · exact tracks.state name earlier
    · exact absurd (List.mem_singleton.mp here).symm (keyAt_ne_state member name)
  · rw [read] at was
    rcases List.mem_append.mp was with earlier | here
    · exact (tracks.pushed key earlier).imp_right (List.mem_cons_of_mem _)
    · exact .inr (List.mem_singleton.mp here ▸ List.mem_cons_self)
  · have same := tracks.opened key
    simp [same, or_comm]

end

end Marks

namespace Loading

theorem check_not_cycle [RegexEngine] {patterns : Array Pattern} {entry : Located set} {fault : LoadError}
    (failed : check patterns entry = .error fault) (cycle : List String) :
    fault ≠ .circularInclude cycle := by
  rintro rfl
  have fields : matching entry ≠ .error (.circularInclude cycle) := by
    unfold matching
    grind
  have fits (tokens : TokenSpec) (p : Pattern) :
      checkTokens entry tokens p ≠ .error (.circularInclude cycle) := by
    unfold checkTokens
    grind
  have leads : target entry ≠ .error (.circularInclude cycle) := by
    unfold target named
    grind [Except.map]
  unfold check at failed
  simp only [bind, Except.bind] at failed
  grind

section

variable {a : Assembly set} {before : List Deed} {levels : List PushKey}

theorem nodup_level {key : PushKey} (distinct : levels.Nodup) (around : levels ⊆ a.openedKeys)
    (new : a.opened.lookup key = none) : (levels ++ [key]).Nodup :=
  List.nodup_append_comm.mp
    (List.nodup_cons.mpr ⟨fun level => Assembly.not_mem_openedKeys new (around level), distinct⟩)

theorem level_subset {key : PushKey} (around : levels ⊆ a.openedKeys) :
    levels ++ [key] ⊆ key :: a.openedKeys := by
  intro other level
  rcases List.mem_append.mp level with outer | here
  · exact List.mem_cons_of_mem _ (around outer)
  · exact List.mem_singleton.mp here ▸ List.mem_cons_self

theorem opening_conduct {entry : Located set} {entries : List Rule}
    (tracks : a.marks.Tracks [] a.openedKeys before) (distinct : levels.Nodup)
    (around : levels ⊆ a.openedKeys) (pushed : entry.rule.pushed? = some entries)
    (new : a.opened.lookup (set.keyAt (entry.place.push entry.index)) = none) {deeds : List Deed}
    {result : Except LoadError a.marks.Reading}
    (read : a.marks.readFrom (entry.place.push entry.index) 0 entries
      (written_pushed entry pushed) = (deeds, result)) :
    Conduct set before
      (fun r => r.marks.Tracks [] (set.keyAt (entry.place.push entry.index) :: a.openedKeys))
      ([.opens levels (set.keyAt (entry.place.push entry.index)),
        .reads a.marks.path (entry.place.push entry.index)] ++ deeds, result) := by
  have member := RuleSet.mem_pushPlaces (listAt?_pushed entry pushed)
  have inner := Marks.readFrom_conduct (tracks.opening levels member)
    (entry.place.push entry.index) 0 entries (written_pushed entry pushed)
  rw [read] at inner
  exact inner.after
    (tracks.opening_orderly member (Assembly.not_mem_openedKeys new) distinct around)

theorem compileRules_conduct [RegexEngine] (tracks : a.marks.Tracks [] a.openedKeys before)
    (id : StateId) (rules : List (Located set)) (distinct : levels.Nodup)
    (around : levels ⊆ a.openedKeys) :
    Conduct set before
      (fun later => later.assembly.marks.Tracks [] later.assembly.openedKeys)
      (compileRules levels a id rules) := by
  fun_induction compileRules levels a id rules generalizing before with
  | case1 => exact .idle tracks
  | case2 levels a id entry rest fault failed => exact .refused (check_not_cycle failed)
  | case3 levels a id entry rest c checked t leads ih => exact ih tracks distinct around
  | case4 levels a id entry rest c checked entries pushed leads _ _ target =>
    rename_i number ih
    exact ih tracks distinct around
  | case5 levels a id entry rest c checked entries pushed leads _ _ new _ deeds =>
    rename_i fault read
    exact (opening_conduct tracks distinct around pushed new read).of_error
  | case6 levels a id entry rest c checked entries pushed leads _ _ new _ deeds reading read =>
    rename_i inner fault failed ih
    have opened := opening_conduct tracks distinct around pushed new read
    have inside := ih (opened.keeps reading rfl) (nodup_level distinct around new)
      (level_subset around)
    rw [failed] at inside
    exact (inside.after opened.orderly).of_error
  | case7 levels a id entry rest c checked entries pushed leads _ _ new _ deeds reading read =>
    rename_i inner later compiled others result remaining ihInner ihRest
    -- The list is gone through, its rules are compiled within it, and only then come the others.
    have opened := opening_conduct tracks distinct around pushed new read
    have inside := ihInner (opened.keeps reading rfl) (nodup_level distinct around new)
      (level_subset around)
    rw [compiled] at inside
    have through := inside.after opened.orderly
    have others := ihRest (through.keeps later rfl) distinct
      (fun key level => later.kept (List.mem_cons_of_mem _ (around level)))
    rw [remaining] at others
    exact (others.after through.orderly).map (fun later more kept => kept)

theorem compileStates_conduct [RegexEngine] (tracks : a.marks.Tracks [] a.openedKeys before)
    (index : Nat) (names : List String) :
    Conduct set before (fun later => later.marks.Tracks [] later.openedKeys)
      (compileStates a index names) := by
  induction names generalizing a index before with
  | nil => exact .idle tracks
  | cons name rest ih =>
    have state := Marks.readState_conduct tracks ⟨name, []⟩ name
    rw [compileStates]
    generalize a.marks.readState ⟨name, []⟩ name = run at state ⊢
    obtain ⟨deeds, fault | reading⟩ := run
    · exact state.of_error
    · have rules := compileRules_conduct (a := a.beginState ⟨index⟩ reading)
        (state.keeps reading rfl) ⟨index⟩ reading.expansion.rules .nil (List.nil_subset _)
      have through := rules.after state.orderly
      dsimp only
      split
      · rename_i inner fault failed
        rw [failed] at through
        exact through.of_error
      · rename_i inner later compiled
        rw [compiled] at through
        have told := (through.keeps later rfl).tells (.stateCompiled name reading.expansion.rules.length)
        have others := (ih told (index + 1)).tells
        exact others.after through.orderly

end

end Loading

namespace RuleSet

theorem tracks_nothing (set : RuleSet) : Marks.Tracks ({} : Marks set) [] [] [] :=
  ⟨Marks.coherent_nothing set, by simp [keysRead], by simp [keysRead], by simp⟩

theorem loading_conduct [RegexEngine] (set : RuleSet) :
    Conduct set [] (fun _ _ => True) set.loading := by
  unfold loading
  cases set.names.idxOf? startName with
  | none => exact .refused (by simp)
  | some start =>
    have states := Loading.compileStates_conduct (a := set.blank) set.tracks_nothing 0 set.names
    generalize Loading.compileStates set.blank 0 set.names = run at states ⊢
    obtain ⟨deeds, fault | a⟩ := run
    · exact states.of_error
    · exact (Conduct.idle trivial).tells.after states.orderly

end RuleSet

end StackLexer
