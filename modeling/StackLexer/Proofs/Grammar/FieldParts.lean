import Mathlib
import StackLexer.Proofs.Grammar.Decoding
import StackLexer.Proofs.Grammar.Renaming

/-! The parts of a rule in JSON.
What stands under one field makes up a rule that has no other field, whatever else is written. A rule is
read when all its parts are, and each of its fields is that of the part. A list is read like the object
that has its items under the names of the fields. -/

namespace StackLexer

open Json (Draft)

namespace Field

theorem ofName?_eq_some {name : String} {field : Field} : ofName? name = some field ↔ name = field.name := by
  constructor
  · intro found
    have same : field.name = name := by simpa using List.find?_some found
    exact same.symm
  · rintro rfl
    exact ofName?_name field

theorem name_injective : Function.Injective name := by
  intro field other same
  have found := ofName?_name field
  rw [same, ofName?_name other] at found
  exact (Option.some.inj found).symm

theorem mem_all (field : Field) : field ∈ all := by
  cases field <;> decide

theorem all_nodup : all.Nodup := by decide

end Field

namespace Rule

def put (rule source : Rule) : Field → Rule
  | .token => { rule with token := source.token }
  | .regex => { rule with regex := source.regex }
  | .next => { rule with next := source.next }
  | .push => { rule with push := source.push }
  | .defaultToken => { rule with defaultToken := source.defaultToken }
  | .includes => { rule with includes := source.includes }
  | .caseInsensitive => { rule with caseInsensitive := source.caseInsensitive }
  | .comment => { rule with comment := source.comment }

theorem jsonAt_put (rule source : Rule) (field other : Field) :
    (rule.put source field).jsonAt other =
      if other = field then source.jsonAt other else rule.jsonAt other := by
  cases field <;> cases other <;> rfl

theorem push_of_jsonAt {rule other : Rule} (same : rule.jsonAt .push = other.jsonAt .push) :
    rule.push = other.push := by
  refine Option.map_injective (fun target target' same => ?_) same
  have back := Decode.push?_toJson target
  rw [same, Decode.push?_toJson target'] at back
  exact (Option.some.inj back).symm

end Rule

namespace Decode

def part (field : Field) (d : Draft) : Except DecodeError Rule := setField (within (push? d)) {} field d

variable {start rule : Rule} {field : Field} {seen fields : List Field} {name : String} {d : Draft} {items : List Draft}
  {ms : List (String × Draft)}

theorem setField_eq (push : Draft → Except DecodeError Push) (start : Rule) (field : Field) (d : Draft) :
    setField push start field d = (setField push {} field d).map (start.put · field) := by
  cases field with
  | token => simp only [setField]; cases optional token d <;> rfl
  | push => simp only [setField]; cases optional push d <;> rfl
  | caseInsensitive => simp only [setField]; cases optional boolean d <;> rfl
  | _ => simp only [setField]; cases optional string d <;> rfl

theorem setField_within : setField (fun _ => (push? d).elim (.error .badPush) .ok) start field d =
    (part field d).map (start.put · field) :=
  setField_eq _ start field d

theorem members?_cons : members? start seen ((name, d) :: ms) = some rule ↔
    ∃ field source, name = field.name ∧ field ∉ seen ∧ part field d = .ok source ∧
      members? (start.put source field) (field :: seen) ms = some rule := by
  rw [members?]
  constructor
  · intro made
    split at made
    · simp at made
    · rename_i field found
      split at made
      · simp at made
      · rename_i new
        simp only [setField_within] at made
        cases parted : part field d with
        | error e => simp [parted, Except.map] at made
        | ok source =>
          rw [parted] at made
          exact ⟨field, source, Field.ofName?_eq_some.mp found, new, parted, made⟩
  · rintro ⟨field, source, rfl, new, parted, rest⟩
    rw [Field.ofName?_name]
    simp only [new, if_false, setField_within, parted]
    exact rest

/-- Members that differ in their names make up a rule when each of them is a part of one. -/
theorem members?_isSome_iff (distinct : (ms.map Prod.fst).Nodup)
    (unseen : ∀ field ∈ seen, field.name ∉ ms.map Prod.fst) :
    (∃ rule, members? start seen ms = some rule) ↔
      ∀ m ∈ ms, ∃ field source, m.1 = field.name ∧ part field m.2 = .ok source := by
  induction ms generalizing start seen with
  | nil => simp [members?]
  | cons m ms ih =>
    obtain ⟨name, d⟩ := m
    obtain ⟨new, distinct⟩ := List.nodup_cons.mp distinct
    have later : ∀ field, name = field.name → ∀ f ∈ field :: seen, f.name ∉ ms.map Prod.fst := by
      rintro field rfl f met inside
      rcases List.mem_cons.mp met with rfl | before
      · exact new inside
      · exact unseen f before (List.mem_cons_of_mem _ inside)
    simp only [members?_cons, List.forall_mem_cons]
    constructor
    · rintro ⟨rule, field, source, same, fresh, parted, made⟩
      exact ⟨⟨field, source, same, parted⟩, (ih distinct (later field same)).mp ⟨rule, made⟩⟩
    · rintro ⟨⟨field, source, same, parted⟩, others⟩
      have fresh : field ∉ seen := fun met => unseen field met (same ▸ List.mem_cons_self)
      obtain ⟨rule, made⟩ := (ih distinct (later field same)).mpr others
      exact ⟨rule, field, source, same, fresh, parted, made⟩

/-- Each field of a rule is that of the part that is given, and absent ones stay as they were. -/
theorem members?_at (made : members? start seen ms = some rule) (field : Field) :
    (∃ d source, (field.name, d) ∈ ms ∧ part field d = .ok source ∧
        rule.jsonAt field = source.jsonAt field) ∨
      (∀ d, (field.name, d) ∉ ms) ∧ rule.jsonAt field = start.jsonAt field := by
  induction ms generalizing start seen with
  | nil =>
    obtain rfl : start = rule := by simpa [members?] using made
    exact .inr ⟨by simp, rfl⟩
  | cons m ms ih =>
    obtain ⟨name, d⟩ := m
    obtain ⟨here, source, rfl, _, parted, rest⟩ := members?_cons.mp made
    rcases ih rest with ⟨d', source', inside, parted', same⟩ | ⟨absent, same⟩
    · exact .inl ⟨d', source', List.mem_cons_of_mem _ inside, parted', same⟩
    · rw [Rule.jsonAt_put] at same
      split at same
      · rename_i met
        subst met
        exact .inl ⟨d, source, List.mem_cons_self, parted, same⟩
      · rename_i other
        refine .inr ⟨fun d' member => ?_, same⟩
        rcases List.mem_cons.mp member with first | inside
        · exact other (Field.name_injective (Prod.mk.inj first).1)
        · exact absent d' inside

theorem positions?_eq (distinct : fields.Nodup) (unseen : ∀ field ∈ fields, field ∉ seen) :
    positions? start fields items =
      if items.length ≤ fields.length then members? start seen ((fields.map Field.name).zip items)
      else none := by
  induction items generalizing start seen fields with
  | nil => simp [positions?, members?]
  | cons d items ih =>
    cases fields with
    | nil => simp [positions?]
    | cons field fields =>
      obtain ⟨new, distinct⟩ := List.nodup_cons.mp distinct
      obtain ⟨fresh, unseen⟩ := List.forall_mem_cons.mp unseen
      have later : ∀ f ∈ fields, f ∉ field :: seen := fun f inside => by
        simp only [List.mem_cons, not_or]
        exact ⟨fun same => new (same ▸ inside), unseen f inside⟩
      simp only [positions?, List.map_cons, List.zip_cons_cons, members?, Field.ofName?_name, fresh,
        if_false, List.length_cons, Nat.add_le_add_iff_right, setField_within]
      cases part field d with
      | error e => simp [Except.map]
      | ok source => exact ih distinct later

/-! ### Drafts without faults -/

theorem positions_eq_ok_iff (clean : Draft.itemsFault? items = none) :
    positions start fields items = .ok (rule, 0) ↔ positions? start fields items = some rule := by
  induction items generalizing start fields with
  | nil => simp [positions, positions?]
  | cons d items ih =>
    obtain ⟨here, others⟩ : d.fault? = none ∧ Draft.itemsFault? items = none := by
      simpa [Draft.itemsFault?] using clean
    cases fields with
    | nil => simp [positions, positions?]
    | cons field fields =>
      have same : setField push start field d = (part field d).map (start.put · field) :=
        (setField_congr (push_of_clean here) start field).trans setField_within
      simp only [positions, positions?, same, setField_within]
      cases part field d with
      | error e => simp [Except.map]
      | ok source => exact ih others

theorem rule_eq_ok_iff (clean : d.fault? = none) {origin : Origin} :
    Decode.rule origin d = .ok rule ↔ rule? d = some rule := by
  cases d with
  | object ms rest =>
    obtain ⟨inside, rfl⟩ : Draft.membersFault? ms = none ∧ rest = none := by
      simpa [Draft.fault?] using clean
    rw [rule?, ← members_eq_ok_iff inside, Decode.rule]
    cases members {} [] ms <;> rfl
  | array items rest =>
    obtain ⟨inside, rfl⟩ : Draft.itemsFault? items = none ∧ rest = none := by
      simpa [Draft.fault?] using clean
    rw [rule?, ← positions_eq_ok_iff inside]
    simp only [Decode.rule]
    cases positions {} Field.all items with
    | error e => simp [bind, Except.bind]
    | ok made =>
      obtain ⟨made, surplus⟩ := made
      cases surplus with
      | zero => simp [bind, Except.bind]
      | succ n => cases origin <;> simp [bind, Except.bind]
  | _ => simp [Decode.rule, rule?]

theorem mapM_eq_ok_iff {α β ε : Type} {read : α → Except ε β} {xs : List α} {ys : List β} :
    xs.mapM read = .ok ys ↔ List.Forall₂ (fun x y => read x = .ok y) xs ys := by
  induction xs generalizing ys with
  | nil => cases ys <;> simp [pure, Except.pure]
  | cons x xs ih =>
    rw [List.mapM_cons]
    cases first : read x with
    | error e => cases ys <;> simp [bind, Except.bind, first]
    | ok y =>
      cases others : xs.mapM read <;>
        cases ys <;> simp [bind, Except.bind, pure, Except.pure, ← ih, others, first]

theorem rules?_eq_some_iff {entries : List Rule} :
    rules? items = some entries ↔ List.Forall₂ (fun d entry => rule? d = some entry) items entries := by
  induction items generalizing entries with
  | nil => cases entries <;> simp [rules?]
  | cons d items ih =>
    rw [rules?]
    cases first : rule? d with
    | none => cases entries <;> simp [first]
    | some entry =>
      cases others : rules? items <;> cases entries <;> simp [← ih, others, first]

end Decode

end StackLexer
