import Mathlib
import StackLexer.Proofs.Grammar.Renaming
import StackLexer.Proofs.Grammar.SharedPatterns
import StackLexer.Proofs.Lexing.Layout

/-! State names are labels.
A rule set under new names is spliced into the same entries as before, from places under new names, so
its machine is the old one with new names for the states. The states of the two lexicons are made from the
same lists; they are numbered in another order, and in nothing else do the lexicons differ in what they
do. -/

namespace StackLexer

/-! ### Machines -/

def Move.map {σ τ : Type} (g : σ → τ) : Move σ → Move τ
  | .stay => .stay
  | .pop => .pop
  | .goto state => .goto (g state)
  | .push state => .push (g state)

def Arm.map {σ τ : Type} (g : σ → τ) (arm : Arm σ) : Arm τ :=
  ⟨arm.pattern, arm.tokens, arm.move.map g⟩

section

variable {σ τ : Type} {g : σ → τ} {R : StateId → τ → Prop}

theorem Move.Related.comap {t : Transition} {move : Move σ} (related : Move.Related R t (move.map g)) :
    Move.Related (fun id state => R id (g state)) t move := by
  cases move <;> cases related <;> constructor <;> assumption

/-- A lexicon that does what a machine does under new names for its states does what the machine does. -/
theorem Machine.Represented.comap {m : Machine σ} {n : Machine τ} {x : Lexicon}
    (represented : n.Represented x R)
    (arms : ∀ state, n.arms (g state) = (m.arms state).map (Arm.map g))
    (default : ∀ state, n.defaultToken (g state) = m.defaultToken state) :
    m.Represented x (fun id state => R id (g state)) := by
  refine ⟨fun id state related => ?_, fun id state related => ?_⟩
  · rw [represented.defaultToken id _ related, default]
  · have rules := represented.rules id _ related
    rw [arms, List.forall₂_map_right_iff] at rules
    exact rules.imp fun _ _ same => ⟨same.pattern, same.tokens, same.move.comap⟩

end

/-! ### Splicing -/

namespace RuleSet

theorem ownDefault_renamed {f : Equiv.Perm String} (rules : List Rule) :
    ownDefault (rules.map (Rule.renamed f)) = ownDefault rules := by
  simp [ownDefault, List.findSome?_map, Function.comp_def]

namespace Renames

variable {f : Equiv.Perm String} {set other : RuleSet}

theorem splice (r : Renames f set other) (within : List String) (place : Place) (index : Nat)
    (rest : List Rule) :
    other.splice (within.map f) (place.renamed f) index (rest.map (Rule.renamed f)) =
      (set.splice within place index rest).map (fun e => (e.1.renamed f, e.2.1, e.2.2.renamed f)) := by
  fun_induction RuleSet.splice set within place index rest with
  | case1 => simp [RuleSet.splice]
  | case2 within place index rule rest others target names rules found inside ih =>
    have names' : (rule.renamed f).includes = some (f target) := by simp [names]
    rw [List.map_cons, splice_known _ _ _ _ names' (r.get?_some found),
      if_pos (List.mem_map_of_mem inside), ih]
    rfl
  | case3 within place index rule rest others target names rules found new ihTail ihInner =>
    have names' : (rule.renamed f).includes = some (f target) := by simp [names]
    have new' : f target ∉ within.map f := by simpa using new
    rw [List.map_append, List.map_singleton] at ihInner
    rw [List.map_cons, splice_known _ _ _ _ names' (r.get?_some found), if_neg new', ihTail,
      List.map_append, ← ihInner]
    rfl
  | case4 within place index rule rest others target names absent ih =>
    have names' : (rule.renamed f).includes = some (f target) := by simp [names]
    rw [List.map_cons, splice_unknown _ _ _ _ names' (r.get?_none absent), ih]
  | case5 within place index rule rest others plain gives ih =>
    rw [List.map_cons, splice_plain _ _ _ _ (by simp [plain]), ih, if_pos (by simpa using gives)]
    rfl
  | case6 within place index rule rest others plain gives ih =>
    rw [List.map_cons, splice_plain _ _ _ _ (by simp [plain]), ih, if_neg (by simpa using gives)]
    rfl

theorem includedDefault (r : Renames f set other) (within : List String) (rest : List Rule) :
    other.includedDefault (within.map f) (rest.map (Rule.renamed f)) =
      set.includedDefault within rest := by
  fun_induction RuleSet.includedDefault set within rest with
  | case1 => simp [RuleSet.includedDefault]
  | case2 within rule rest others target names rules found inside ih =>
    have names' : (rule.renamed f).includes = some (f target) := by simp [names]
    rw [List.map_cons, includedDefault_known _ _ names' (r.get?_some found),
      if_pos (List.mem_map_of_mem inside), ih]
    rfl
  | case3 within rule rest others target names rules found new ihTail ihInner =>
    have names' : (rule.renamed f).includes = some (f target) := by simp [names]
    have new' : f target ∉ within.map f := by simpa using new
    rw [List.map_append, List.map_singleton] at ihInner
    rw [List.map_cons, includedDefault_known _ _ names' (r.get?_some found), if_neg new', ihTail,
      ownDefault_renamed, ihInner]
  | case4 within rule rest others target names absent ih =>
    have names' : (rule.renamed f).includes = some (f target) := by simp [names]
    rw [List.map_cons, includedDefault_unknown _ _ names' (r.get?_none absent), ih]
  | case5 within rule rest others plain ih =>
    rw [List.map_cons, includedDefault_plain _ _ (by simp [plain]), ih]

theorem move (r : Renames f set other) (rule : Rule) (place : Place) (index : Nat) :
    (rule.renamed f).move (place.renamed f) index =
      (rule.move place index).map (Place.renamed f) := by
  unfold Rule.move
  rw [Rule.renamed_next, Rule.renamed_push]
  cases rule.next with
  | some name =>
    by_cases isPop : name = popName
    · simp [isPop, r.pop, Move.map]
    · have notPop : ¬ f name = popName := fun same => isPop (r.eq_pop_iff.mp same)
      simp [isPop, notPop, Move.map, Place.renamed]
  | none =>
    cases rule.push with
    | none => rfl
    | some target => cases target <;> rfl

variable [RegexEngine]

theorem arm? (r : Renames f set other) (rule : Rule) (place : Place) (index : Nat) :
    (rule.renamed f).arm? (place.renamed f) index =
      (rule.arm? place index).map (Arm.map (Place.renamed f)) := by
  unfold Rule.arm?
  rw [Rule.renamed_token, Rule.renamed_regex, Rule.renamed_caseInsensitive, r.move]
  cases rule.token <;> cases rule.regex <;> simp [Arm.map]
  cases (Pattern.compile _ _).toOption <;> rfl

theorem arms (r : Renames f set other) (place : Place) :
    other.machine.arms (place.renamed f) =
      (set.machine.arms place).map (Arm.map (Place.renamed f)) := by
  have spliced := r.splice [] place 0 (set.entriesAt place)
  rw [List.map_nil] at spliced
  simp only [machine, r.entriesAt, spliced, List.filterMap_map, List.map_filterMap]
  exact congrArg (fun arm => List.filterMap arm _) (funext fun entry => r.arm? _ _ _)

theorem defaultToken (r : Renames f set other) (place : Place) :
    other.machine.defaultToken (place.renamed f) = set.machine.defaultToken place := by
  have included := r.includedDefault [] (set.entriesAt place)
  rw [List.map_nil] at included
  simp only [machine, r.entriesAt, included, ownDefault_renamed]

end Renames

/-! ### Numbers -/

section

variable {set : RuleSet} {x : Lexicon}

def lists (set : RuleSet) : List PushKey :=
  set.names.map (fun name => .list ⟨name, []⟩) ++ set.pushedKeys

theorem nodup_lists (set : RuleSet) : set.lists.Nodup := by
  refine List.nodup_append'.mpr ⟨?_, set.nodup_pushedKeys, ?_⟩
  · exact set.names_nodup.map (fun name other same => congrArg Place.state (PushKey.list.inj same))
  · intro key named pushed
    obtain ⟨name, _, rfl⟩ := List.mem_map.mp named
    obtain ⟨p, member, same⟩ := mem_pushedKeys.mp pushed
    rw [keyAt_of_mem_pushPlaces member] at same
    split at same
    · obtain rfl := PushKey.list.inj same
      exact (listAt?_of_mem_pushPlaces member).1 rfl
    · simp at same

variable [RegexEngine]

theorem exists_numbering (loaded : set.load.2 = .ok x) :
    ∃ order : List PushKey, order.Perm set.lists ∧ x.stateCount = order.length ∧
      ∀ id, set.source id = order[id.index]? := by
  obtain ⟨a, start, made, _, rfl⟩ := load_eq_ok_iff.mp loaded
  have inv := assembly_invariant made
  have numbered := assembly_numbered made
  refine ⟨a.keys, (numbered.met_perm inv).append_left _, ?_, fun id => ?_⟩
  · rw [stateCount_eq loaded made, Assembly.keys, List.length_append, List.length_map]
  · rw [source_of_assembly made, numbered.source_eq inv]

theorem stateCount_eq_lists (loaded : set.load.2 = .ok x) : x.stateCount = set.lists.length := by
  obtain ⟨order, perm, count, _⟩ := exists_numbering loaded
  rw [count, perm.length_eq]

theorem exists_source_iff (loaded : set.load.2 = .ok x) {key : PushKey} :
    (∃ id, set.source id = some key) ↔ key ∈ set.lists := by
  obtain ⟨order, perm, _, source⟩ := exists_numbering loaded
  simp only [source, ← perm.mem_iff, List.mem_iff_getElem?]
  exact ⟨fun ⟨id, at_⟩ => ⟨id.index, at_⟩, fun ⟨i, at_⟩ => ⟨⟨i⟩, at_⟩⟩

theorem source_injective (loaded : set.load.2 = .ok x) {id other : StateId} {key : PushKey}
    (first : set.source id = some key) (second : set.source other = some key) : id = other := by
  obtain ⟨order, perm, _, source⟩ := exists_numbering loaded
  rw [source] at first second
  have once : order.Nodup := perm.nodup_iff.mpr set.nodup_lists
  obtain ⟨bound, rfl⟩ := List.getElem?_eq_some_iff.mp first
  obtain ⟨bound', same⟩ := List.getElem?_eq_some_iff.mp second
  have index : other.index = id.index := once.getElem_inj_iff.mp same
  cases id
  cases other
  exact congrArg StateId.mk index.symm

end

def Renumbers [RegexEngine] (f : Equiv.Perm String) (set other : RuleSet) (ids : StateId → StateId) : Prop :=
  ∀ id key, set.source id = some key → other.source (ids id) = some (key.renamed f)

namespace Renames

variable {f : Equiv.Perm String} {set other : RuleSet} {x y : Lexicon}

theorem mem_lists (r : Renames f set other) {key : PushKey} (member : key ∈ set.lists) :
    key.renamed f ∈ other.lists := by
  rcases List.mem_append.mp member with named | pushed
  · obtain ⟨name, inside, rfl⟩ := List.mem_map.mp named
    exact List.mem_append_left _ (List.mem_map_of_mem (r.mem_names inside))
  · exact List.mem_append_right _ (r.mem_pushedKeys pushed)

theorem lists_perm (r : Renames f set other) : other.lists.Perm (set.lists.map (PushKey.renamed f)) := by
  refine (List.perm_ext_iff_of_nodup other.nodup_lists
    (set.nodup_lists.map PushKey.renamed_injective)).mpr fun key => ?_
  constructor <;> intro member
  · exact List.mem_map.mpr ⟨key.renamed f.symm, r.symm.mem_lists member, key.renamed_forth⟩
  · obtain ⟨old, inside, rfl⟩ := List.mem_map.mp member
    exact r.mem_lists inside

theorem writes (r : Renames f set other) {key : String × Bool} (written : set.Writes key) :
    other.Writes key := by
  obtain ⟨place, rules, found, rule, inside, asks, flag⟩ := written
  refine ⟨place.renamed f, rules.map (Rule.renamed f), by rw [r.listAt?, found]; rfl, rule.renamed f,
    List.mem_map_of_mem inside, ?_, ?_⟩
  · rw [Rule.renamed_regex, asks]
  · rw [Rule.renamed_caseInsensitive, flag]

variable [RegexEngine]

theorem stateCount_eq (r : Renames f set other) (loaded : set.load.2 = .ok x)
    (renamed : other.load.2 = .ok y) : y.stateCount = x.stateCount := by
  rw [stateCount_eq_lists loaded, stateCount_eq_lists renamed, r.lists_perm.length_eq, List.length_map]

theorem patternCount_eq (r : Renames f set other) (loaded : set.load.2 = .ok x)
    (renamed : other.load.2 = .ok y) : y.patternCount = x.patternCount := by
  have same : (y.patterns.toList.map Pattern.key).Perm (x.patterns.toList.map Pattern.key) := by
    refine (List.perm_ext_iff_of_nodup (nodup_patternKeys renamed) (nodup_patternKeys loaded)).mpr
      fun key => ?_
    rw [mem_patternKeys renamed, mem_patternKeys loaded]
    exact ⟨r.symm.writes, r.writes⟩
  simpa [Lexicon.patternCount] using same.length_eq

theorem exists_renumbers (r : Renames f set other) (loaded : set.load.2 = .ok x)
    (renamed : other.load.2 = .ok y) : ∃ ids, Renumbers f set other ids := by
  have each : ∀ id, ∃ id', ∀ key, set.source id = some key →
      other.source id' = some (key.renamed f) := by
    intro id
    cases source : set.source id with
    | none => exact ⟨id, by simp⟩
    | some key =>
      have listed := r.mem_lists ((exists_source_iff loaded).mp ⟨id, source⟩)
      obtain ⟨id', source'⟩ := (exists_source_iff renamed).mpr listed
      refine ⟨id', fun key' same => ?_⟩
      rw [source', Option.some.inj same]
  choose ids renumbers using each
  exact ⟨ids, renumbers⟩

section

variable {ids : StateId → StateId}

theorem bijOn_ids (r : Renames f set other) (loaded : set.load.2 = .ok x)
    (renamed : other.load.2 = .ok y) (renumbers : Renumbers f set other ids) :
    Set.BijOn ids {id | id.index < x.stateCount} {id | id.index < y.stateCount} := by
  refine ⟨?_, ?_, ?_⟩
  · intro id bound
    obtain ⟨key, source⟩ := made_of_bound loaded bound
    exact made_bound renamed ⟨_, renumbers id key source⟩
  · intro id bound id' bound' same
    obtain ⟨key, source⟩ := made_of_bound loaded bound
    obtain ⟨key', source'⟩ := made_of_bound loaded bound'
    have first := renumbers id key source
    rw [same, renumbers id' key' source', Option.some.injEq] at first
    exact source_injective loaded source (PushKey.renamed_injective first ▸ source')
  · intro id' bound'
    obtain ⟨key, source'⟩ := made_of_bound renamed bound'
    have listed := r.symm.mem_lists ((exists_source_iff renamed).mp ⟨id', source'⟩)
    obtain ⟨id, source⟩ := (exists_source_iff loaded).mpr listed
    refine ⟨id, made_bound loaded ⟨_, source⟩, source_injective renamed (renumbers id _ source) ?_⟩
    rw [source', PushKey.renamed_forth]

theorem stateId?_ids (r : Renames f set other) (loaded : set.load.2 = .ok x)
    (renamed : other.load.2 = .ok y) (renumbers : Renumbers f set other ids) (name : String) :
    y.stateId? (f name) = (x.stateId? name).map ids := by
  cases named : x.stateId? name with
  | none =>
    rw [Option.map_none, Option.eq_none_iff_forall_ne_some]
    intro id found
    have back := r.symm.mem_names ((mem_names_of_stateId? renamed).mp ⟨id, found⟩)
    rw [Equiv.symm_apply_apply] at back
    obtain ⟨id, found⟩ := (mem_names_of_stateId? loaded).mpr back
    simp [named] at found
  | some id =>
    have inside := r.mem_names ((mem_names_of_stateId? loaded).mp ⟨id, named⟩)
    obtain ⟨id', named'⟩ := (mem_names_of_stateId? renamed).mpr inside
    have source := renumbers id _ (source_of_stateId? loaded named)
    rw [named', Option.map_some,
      source_injective renamed (source_of_stateId? renamed named') source]

theorem eq_ids (r : Renames f set other) (renamed : other.load.2 = .ok y)
    (renumbers : Renumbers f set other ids) {id id' : StateId} {place : Place}
    (stands : set.StandsFor id place) (stands' : other.StandsFor id' (place.renamed f)) :
    id' = ids id := by
  rw [StandsFor, r.keyAt] at stands'
  exact source_injective renamed stands' (renumbers id _ stands)

end

end Renames

end RuleSet

/-! ### Lines -/

def Stack.renumbered (ids : StateId → StateId) (s : Stack) : Stack :=
  ⟨ids s.root, ids s.top, s.below.map ids⟩

theorem forall₂_meet {α β γ : Type} {first : α → γ → Prop} {second : β → γ → Prop}
    {both : α → β → Prop}
    (meet : ∀ a b c, first a c → second b c → both a b) {l : List α} {l' : List β} {n : List γ}
    (left : List.Forall₂ first l n) (right : List.Forall₂ second l' n) : List.Forall₂ both l l' := by
  induction left generalizing l' with
  | nil =>
    cases right
    exact .nil
  | cons here _ ih =>
    cases right with
    | cons here' others' => exact .cons (meet _ _ _ here here') (ih others')

namespace RuleSet

variable {f : Equiv.Perm String} {set other : RuleSet} {x y : Lexicon} {ids : StateId → StateId}

theorem Renames.stack_ids [RegexEngine] (r : Renames f set other) (renamed : other.load.2 = .ok y)
    (renumbers : Renumbers f set other ids) {s s' : Stack} {frames : Machine.Frames Place}
    (related : Machine.Frames.Related set.StandsFor s frames)
    (related' : Machine.Frames.Related (fun id place => other.StandsFor id (place.renamed f)) s'
      frames) : s' = s.renumbered ids := by
  have below : List.Forall₂ (fun id id' => id' = ids id) s.below s'.below := by
    refine forall₂_meet (fun id id' place stands stands' => ?_) related.below related'.below
    exact r.eq_ids renamed renumbers stands stands'
  have root := r.eq_ids renamed renumbers related.root related'.root
  have top := r.eq_ids renamed renumbers related.top related'.top
  obtain ⟨root', top', below'⟩ := s'
  have rest : below' = s.below.map ids := by
    rw [← List.forall₂_eq_eq_eq, List.forall₂_map_right_iff]
    exact below.flip
  rw [Stack.renumbered, ← rest, ← root, ← top]

theorem Renames.lines_alike [RegexEngine] (r : Renames f set other) (loaded : set.load.2 = .ok x)
    (renamed : other.load.2 = .ok y) (renumbers : Renumbers f set other ids) {name : String}
    {root : StateId} (named : x.stateId? name = some root) (settings : Settings) (texts : List String) :
    List.Forall₂
      (fun out out' => out'.tokens = out.tokens ∧ out'.counts = out.counts ∧
        out'.stack = out.stack.renumbered ids)
      (Tokenizer.lines ⟨x, settings⟩ (.ofRoot root) texts)
      (Tokenizer.lines ⟨y, settings⟩ (.ofRoot (ids root)) texts) := by
  have stands : set.StandsFor root ⟨name, []⟩ := source_of_stateId? loaded named
  have stands' : other.StandsFor (ids root) (Place.renamed f ⟨name, []⟩) := by
    rw [StandsFor, r.keyAt]
    exact renumbers root _ stands
  -- Both lexicons do what the machine of the old rule set does.
  have represented := (machine_represented renamed).comap r.arms r.defaultToken
  have alike := Machine.lines_related (t := ⟨x, settings⟩) (machine_represented loaded)
    (Machine.Frames.related_ofRoot stands) texts
  have alike' := Machine.lines_related (t := ⟨y, settings⟩) represented
    (Machine.Frames.related_ofRoot stands') texts
  refine forall₂_meet (fun out out' reading same same' => ?_) alike alike'
  obtain ⟨tokens, counts, frames⟩ := same
  obtain ⟨tokens', counts', frames'⟩ := same'
  exact ⟨tokens'.trans tokens.symm, counts'.trans counts.symm,
    r.stack_ids renamed renumbers frames frames'⟩

/-! ### Loading -/

theorem Renames.loads [RegexEngine] (r : Renames f set other) (loaded : ∃ x, set.load.2 = .ok x) :
    ∃ y, other.load.2 = .ok y := by
  obtain ⟨x, loaded⟩ := loaded
  exact (r.wellFormed (wellFormed_of_load loaded)).loads

/-- New names for the states change nothing but the numbers of the states: the renamed rule set is
loaded if the old one is, with as many states and patterns, and scans all lines alike from the renamed
state. The name that stands for going back and that of the first state stay. -/
theorem load_renamed [RegexEngine] (set : RuleSet) (f : Equiv.Perm String) (start : f startName = startName)
    (pop : f popName = popName) :
    ((∃ y, (set.renamed f).load.2 = .ok y) ↔ ∃ x, set.load.2 = .ok x) ∧
      ∀ x y, set.load.2 = .ok x → (set.renamed f).load.2 = .ok y →
        y.stateCount = x.stateCount ∧ y.patternCount = x.patternCount ∧
        ∃ ids : StateId → StateId,
          Set.BijOn ids {id | id.index < x.stateCount} {id | id.index < y.stateCount} ∧
          (∀ name, y.stateId? (f name) = (x.stateId? name).map ids) ∧
          ∀ name root, x.stateId? name = some root → ∀ (settings : Settings) (texts : List String),
            List.Forall₂
              (fun out out' => out'.tokens = out.tokens ∧ out'.counts = out.counts ∧
                out'.stack = out.stack.renumbered ids)
              (Tokenizer.lines ⟨x, settings⟩ (.ofRoot root) texts)
              (Tokenizer.lines ⟨y, settings⟩ (.ofRoot (ids root)) texts) := by
  have r := renames_renamed set start pop
  refine ⟨⟨r.symm.loads, r.loads⟩, fun x y loaded renamed => ?_⟩
  obtain ⟨ids, renumbers⟩ := r.exists_renumbers loaded renamed
  exact ⟨r.stateCount_eq loaded renamed, r.patternCount_eq loaded renamed, ids,
    r.bijOn_ids loaded renamed renumbers, r.stateId?_ids loaded renamed renumbers,
    fun _ _ named => r.lines_alike loaded renamed renumbers named⟩

def quotes : RuleSet :=
  (RuleSet.empty.withState "start" [(Rule.single "open" "'").withPushState "body"]).withState "body"
    [(Rule.single "close" "'").withNext "pop", Rule.default "quoted"]

theorem load_renamed_quotes :
    let f := Equiv.swap "body" "zone"
    f startName = startName ∧ f popName = popName ∧
      ∃ x y root, quotes.load.2 = .ok x ∧ (quotes.renamed f).load.2 = .ok y ∧
        x.stateId? "start" = some root ∧ y.stateCount = x.stateCount ∧
        y.patternCount = x.patternCount ∧ ∃ ids : StateId → StateId,
          y.stateId? "zone" = (x.stateId? "body").map ids ∧
          List.Forall₂
            (fun out out' => out'.tokens = out.tokens ∧ out'.counts = out.counts ∧
              out'.stack = out.stack.renumbered ids)
            (Tokenizer.lines ⟨x, {}⟩ (.ofRoot root) ["a 'b", "c' d"])
            (Tokenizer.lines ⟨y, {}⟩ (.ofRoot (ids root)) ["a 'b", "c' d"]) := by
  intro f
  have start : f startName = startName := Equiv.swap_apply_of_ne_of_ne (by decide) (by decide)
  have pop : f popName = popName := Equiv.swap_apply_of_ne_of_ne (by decide) (by decide)
  have begins : quotes.load.2.toOption.bind (fun x => x.stateId? "start") = some ⟨1⟩ := by cbv
  obtain ⟨x, found, named⟩ := Option.bind_eq_some_iff.mp begins
  have loaded := load_of_toOption found
  obtain ⟨accepted, alike⟩ := load_renamed quotes f start pop
  obtain ⟨y, renamed⟩ := accepted.mpr ⟨x, loaded⟩
  obtain ⟨states, patterns, ids, _, names, lines⟩ := alike x y loaded renamed
  have zone : y.stateId? "zone" = (x.stateId? "body").map ids := by
    rw [← names, Equiv.swap_apply_left]
  exact ⟨start, pop, x, y, ⟨1⟩, loaded, renamed, named, states, patterns, ids, zone,
    lines "start" ⟨1⟩ named {} ["a 'b", "c' d"]⟩

example : quotes.names = ["body", "start"] ∧
    (quotes.renamed (Equiv.swap "body" "zone")).names = ["start", "zone"] := by
  decide

end RuleSet

end StackLexer
