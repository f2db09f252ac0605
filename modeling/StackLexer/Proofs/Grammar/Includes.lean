import Mathlib.Logic.Relation
import StackLexer.Proofs.Grammar.Marks

/-! Includes as a relation.
`Expands` says what a list stands for without a memory of states that were expanded before. Whatever
is remembered and whichever states are being expanded, an expansion that succeeds is the one of this
relation, and there is no other. A state that has one does not include itself, over however many
states. -/

namespace StackLexer

theorem mem_of_lookup {α β : Type} [BEq α] [LawfulBEq α] {entries : List (α × β)} {key : α}
    {value : β} (h : entries.lookup key = some value) : (key, value) ∈ entries := by
  obtain ⟨before, after, same, _⟩ := List.lookup_eq_some_iff.mp h
  simp [same]

namespace RuleSet

/-- The list of a state has an entry that includes another state. Entries of lists that are pushed
do not count. -/
def Includes (set : RuleSet) (state target : String) : Prop :=
  ∃ rules, set.get? state = some rules ∧ ∃ rule ∈ rules, rule.includes = some target

inductive Expands (set : RuleSet) : Place → Nat → List Rule → Expansion set → Prop
  | nil (place : Place) (index : Nat) : Expands set place index [] {}
  | including {place : Place} {index : Nat} {rule : Rule} {rest rules : List Rule} {target : String}
      {included e : Expansion set} (names : rule.includes = some target)
      (alone : rule.includesMore = false) (found : set.get? target = some rules)
      (inner : Expands set ⟨target, []⟩ 0 rules included)
      (tail : Expands set place (index + 1) rest e) :
      Expands set place index (rule :: rest)
        { e with
          rules := included.rules ++ e.rules
          inherited := included.defaultToken.or e.inherited }
  | default {place : Place} {index : Nat} {rule : Rule} {rest : List Rule} {kind : String}
      {e : Expansion set} (plain : rule.includes = none) (gives : rule.defaultToken = some kind)
      (alone : rule.defaultsMore = false) (tail : Expands set place (index + 1) rest e) :
      Expands set place index (rule :: rest) { e with own := some kind }
  | matching {place : Place} {index : Nat} {rule : Rule} {rest : List Rule} {e : Expansion set}
      (plain : rule.includes = none) (gives : rule.defaultToken = none)
      (here : (set.listAt? place).bind (·[index]?) = some rule)
      (tail : Expands set place (index + 1) rest e) :
      Expands set place index (rule :: rest) { e with rules := ⟨place, index, rule, here⟩ :: e.rules }

def ExpandsAt (set : RuleSet) (place : Place) (e : Expansion set) : Prop :=
  ∃ rules, set.listAt? place = some rules ∧ set.Expands place 0 rules e

variable {set : RuleSet}

@[simp] theorem listAt?_state (set : RuleSet) (name : String) :
    set.listAt? ⟨name, []⟩ = set.get? name := by
  cases state : set.get? name <;> simp [listAt?, state, Rule.listAt?]

theorem expandsAt_state {name : String} {e : Expansion set} :
    set.ExpandsAt ⟨name, []⟩ e ↔
      ∃ rules, set.get? name = some rules ∧ set.Expands ⟨name, []⟩ 0 rules e := by
  rw [ExpandsAt, listAt?_state]

end RuleSet

namespace Marks

variable {set : RuleSet} {m : Marks set} {path : List String} {name : String}

/-- The marks go with a path, and what they remember of states that are done is right. -/
structure Sound (m : Marks set) (path : List String) : Prop extends Coherent m path where
  right : ∀ name e, m.mark name = .done e → set.ExpandsAt ⟨name, []⟩ e

theorem sound_nothing (set : RuleSet) : Sound ({} : Marks set) [] :=
  ⟨coherent_nothing set, fun name e done => by simp [mark] at done⟩

theorem Sound.begin (sound : m.Sound path) (untouched : m.mark name = .untouched) :
    (m.begin name).Sound (path ++ [name]) := by
  refine ⟨sound.toCoherent.begin (sound.not_mem untouched), fun other e done => ?_⟩
  rw [mark_begin] at done
  split at done
  · simp at done
  · exact sound.right other e done

theorem Sound.finish (sound : m.Sound (path ++ [name])) {e : Expansion set}
    (expands : set.ExpandsAt ⟨name, []⟩ e) : (m.finish name e).Sound path := by
  refine ⟨sound.toCoherent.finish e, fun other e' done => ?_⟩
  rw [mark_finish] at done
  split at done
  · rename_i same
    exact same ▸ Mark.done.inj done ▸ expands
  · exact sound.right other e' done

-- Both follow the readings: fewer states are untouched, or fewer entries are left of the list.
mutual

theorem readState_expands {m : Marks set} {path : List String} {includer : Place} {name : String}
    {r : m.Reading} (sound : m.Sound path) (h : (m.readState includer name).2 = .ok r) :
    set.ExpandsAt ⟨name, []⟩ r.expansion ∧ r.marks.Sound path := by
  cases found : set.get? name with
  | none => simp [readState_absent found] at h
  | some rules =>
    cases mark : m.mark name with
    | done e =>
      rw [readState_done found mark] at h
      obtain rfl := Except.ok.inj h
      exact ⟨sound.right name e mark, sound⟩
    | underway => simp [readState_underway found mark] at h
    | untouched =>
      have fewer := untouched_begin found mark
      rw [readState_untouched found mark] at h
      obtain ⟨inner, read, rfl⟩ := Loading.map_ok h
      obtain ⟨expands, within⟩ := readFrom_expands (sound.begin mark) read
      have at_ := RuleSet.expandsAt_state.mpr ⟨rules, found, expands⟩
      exact ⟨at_, within.finish at_⟩
termination_by (m.untouched.length, 0)

theorem readFrom_expands {m : Marks set} {path : List String} {place : Place} {index : Nat}
    {rest : List Rule} {written : (set.listAt? place).map (List.drop index) = some rest}
    {r : m.Reading} (sound : m.Sound path) (h : (m.readFrom place index rest written).2 = .ok r) :
    set.Expands place index rest r.expansion ∧ r.marks.Sound path := by
  cases rest with
  | nil =>
    rw [readFrom] at h
    obtain rfl := Except.ok.inj h
    exact ⟨.nil place index, sound⟩
  | cons rule rest =>
    cases names : rule.includes with
    | some target =>
      cases alone : rule.includesMore with
      | true => simp [readFrom_includesMore names alone] at h
      | false =>
        rw [outcome_including names alone] at h
        obtain ⟨first, inner, h⟩ := Loading.bind_ok h
        obtain ⟨last, tail, rfl⟩ := Loading.map_ok h
        obtain ⟨at_, between⟩ := readState_expands sound inner
        obtain ⟨rules, found, expands⟩ := RuleSet.expandsAt_state.mp at_
        obtain ⟨others, after⟩ := readFrom_expands between tail
        exact ⟨.including names alone found expands others, after⟩
    | none =>
      cases gives : rule.defaultToken with
      | some kind =>
        cases alone : rule.defaultsMore with
        | true => simp [readFrom_defaultsMore names gives alone] at h
        | false =>
          rw [readFrom_default names gives alone] at h
          obtain ⟨last, tail, rfl⟩ := Loading.map_ok h
          obtain ⟨others, after⟩ := readFrom_expands sound tail
          exact ⟨.default names gives alone others, after⟩
      | none =>
        rw [readFrom_matching names gives] at h
        obtain ⟨last, tail, rfl⟩ := Loading.map_ok h
        obtain ⟨others, after⟩ := readFrom_expands sound tail
        exact ⟨.matching names gives _ others, after⟩
termination_by (m.untouched.length, rest.length + 1)
decreasing_by
  · decreasing_tactic
  · decreasing_tactic
  · decreasing_tactic
  · exact lex_of_le first.within (by decreasing_tactic)

end

end Marks

namespace RuleSet

variable {set : RuleSet}

theorem Expands.unique {place : Place} {index : Nat} {rest : List Rule} {e e' : Expansion set}
    (first : set.Expands place index rest e) (second : set.Expands place index rest e') :
    e = e' := by
  induction first generalizing e' with
  | nil => cases second; rfl
  | including names _ found _ _ inner tail =>
    cases second with
    | including names' _ found' inner' tail' =>
      obtain rfl := Option.some.inj (names.symm.trans names')
      obtain rfl := Option.some.inj (found.symm.trans found')
      rw [inner inner', tail tail']
    | default plain => simp [names] at plain
    | matching plain => simp [names] at plain
  | default plain gives _ _ tail =>
    cases second with
    | including names => simp [plain] at names
    | default _ gives' _ tail' =>
      obtain rfl := Option.some.inj (gives.symm.trans gives')
      rw [tail tail']
    | matching _ gives' => simp [gives] at gives'
  | matching plain gives _ _ tail =>
    cases second with
    | including names => simp [plain] at names
    | default _ gives' => simp [gives] at gives'
    | matching _ _ _ tail' => rw [tail tail']

theorem ExpandsAt.unique {place : Place} {e e' : Expansion set} (first : set.ExpandsAt place e)
    (second : set.ExpandsAt place e') : e = e' := by
  obtain ⟨rules, at_, first⟩ := first
  obtain ⟨rules', at_', second⟩ := second
  obtain rfl := Option.some.inj (at_.symm.trans at_')
  exact first.unique second

theorem Expands.plain {place : Place} {index : Nat} {rest : List Rule} {e : Expansion set}
    (expands : set.Expands place index rest e) :
    ∀ entry ∈ e.rules, entry.rule.includes = none ∧ entry.rule.defaultToken = none := by
  induction expands with
  | nil => simp
  | including _ _ _ _ _ inner tail =>
    intro entry member
    rcases List.mem_append.mp member with member | member
    · exact inner entry member
    · exact tail entry member
  | default _ _ _ _ tail => exact tail
  | matching plain gives _ _ tail =>
    intro entry member
    rcases List.mem_cons.mp member with rfl | member
    · exact ⟨plain, gives⟩
    · exact tail entry member

theorem Expands.entry {place : Place} {index : Nat} {rest : List Rule} {e : Expansion set}
    (expands : set.Expands place index rest e) {i : Nat} {rule : Rule} (at_ : rest[i]? = some rule) :
    (∃ target, rule.includes = some target ∧ rule.includesMore = false ∧ target ∈ set.names) ∨
      (∃ kind, rule.includes = none ∧ rule.defaultToken = some kind ∧ rule.defaultsMore = false) ∨
      ∃ entry ∈ e.rules, entry.place = place ∧ entry.index = index + i ∧ entry.rule = rule := by
  induction expands generalizing i with
  | nil => simp at at_
  | including names alone found _ _ _ tail =>
    cases i with
    | zero =>
      obtain rfl := Option.some.inj at_
      exact .inl ⟨_, names, alone, mem_names found⟩
    | succ i =>
      rcases tail at_ with said | said | ⟨entry, inside, said, number, same⟩
      · exact .inl said
      · exact .inr (.inl said)
      · exact .inr (.inr ⟨entry, List.mem_append_right _ inside, said, by omega, same⟩)
  | default plain gives alone _ tail =>
    cases i with
    | zero =>
      obtain rfl := Option.some.inj at_
      exact .inr (.inl ⟨_, plain, gives, alone⟩)
    | succ i =>
      rcases tail at_ with said | said | ⟨entry, inside, said, number, same⟩
      · exact .inl said
      · exact .inr (.inl said)
      · exact .inr (.inr ⟨entry, inside, said, by omega, same⟩)
  | matching plain gives here _ tail =>
    cases i with
    | zero =>
      obtain rfl := Option.some.inj at_
      exact .inr (.inr ⟨_, List.mem_cons_self, rfl, rfl, rfl⟩)
    | succ i =>
      rcases tail at_ with said | said | ⟨entry, inside, said, number, same⟩
      · exact .inl said
      · exact .inr (.inl said)
      · exact .inr (.inr ⟨entry, List.mem_cons_of_mem _ inside, said, by omega, same⟩)

theorem Expands.accessible {place : Place} {index : Nat} {rest : List Rule} {e : Expansion set}
    (expands : set.Expands place index rest e) {rule : Rule} (member : rule ∈ rest)
    {target : String} (names : rule.includes = some target) :
    Acc (Function.swap set.Includes) target := by
  induction expands generalizing rule target with
  | nil => simp at member
  | including names' _ found _ _ inner tail =>
    rcases List.mem_cons.mp member with rfl | member
    · obtain rfl := Option.some.inj (names'.symm.trans names)
      refine .intro _ (fun next edge => ?_)
      obtain ⟨rules, found', rule, inside, names⟩ := edge
      obtain rfl := Option.some.inj (found.symm.trans found')
      exact inner inside names
    · exact tail member names
  | default plain _ _ _ tail =>
    rcases List.mem_cons.mp member with rfl | member
    · simp [plain] at names
    · exact tail member names
  | matching plain _ _ _ tail =>
    rcases List.mem_cons.mp member with rfl | member
    · simp [plain] at names
    · exact tail member names

theorem ExpandsAt.acyclic {name : String} {e : Expansion set} (expands : set.ExpandsAt ⟨name, []⟩ e) :
    ¬ Relation.TransGen set.Includes name name := by
  rw [expandsAt_state] at expands
  obtain ⟨rules, found, expands⟩ := expands
  have reached : Acc (Function.swap set.Includes) name := by
    refine .intro _ (fun next edge => ?_)
    obtain ⟨rules', found', rule, inside, names⟩ := edge
    obtain rfl := Option.some.inj (found.symm.trans found')
    exact expands.accessible inside names
  have closed := reached.transGen
  intro cycle
  replace cycle := Relation.transGen_swap.mpr cycle
  clear expands found reached
  induction closed with
  | intro name _ ih => exact ih name cycle cycle

end RuleSet

end StackLexer
