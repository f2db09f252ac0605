import StackLexer.Grammar.Expansion

/-! Marks on the states while includes are expanded.
What one entry comes to is said here once, for each kind of entry and each mark of the state that it
includes. The states that are underway are those on the path, and none of them stands there twice. -/

namespace StackLexer

namespace Loading

variable {ε α β : Type} {x : Except ε α}

theorem map_ok {f : α → β} {b : β} (h : x.map f = .ok b) : ∃ a, x = .ok a ∧ f a = b := by
  cases x with
  | error e => simp [Except.map] at h
  | ok a => exact ⟨a, rfl, Except.ok.inj h⟩

theorem map_error {f : α → β} {e : ε} (h : x.map f = .error e) : x = .error e := by
  cases x with
  | error e' => exact congrArg Except.error (Except.error.inj h)
  | ok a => simp [Except.map] at h

theorem bind_ok {f : α → Except ε β} {b : β} (h : x.bind f = .ok b) :
    ∃ a, x = .ok a ∧ f a = .ok b := by
  cases x with
  | error e => simp [Except.bind] at h
  | ok a => exact ⟨a, rfl, h⟩

theorem bind_error {f : α → Except ε β} {e : ε} (h : x.bind f = .error e) :
    x = .error e ∨ ∃ a, x = .ok a ∧ f a = .error e := by
  cases x with
  | error e' => exact .inl (congrArg Except.error (Except.error.inj h))
  | ok a => exact .inr ⟨a, rfl, h⟩

end Loading

namespace Marks

variable {set : RuleSet}

/-! ### What one entry comes to -/

section

variable {m : Marks set} {place includer : Place} {index : Nat} {name target kind : String}
  {rule : Rule} {rest rules : List Rule}

theorem readState_absent (absent : set.get? name = none) :
    m.readState includer name = ([], .error (.unknownInclude includer.label name)) := by
  rw [readState]
  split
  · rfl
  · rename_i found
    simp [absent] at found

theorem readState_done {e : Expansion set} (found : set.get? name = some rules)
    (done : m.mark name = .done e) : m.readState includer name = ([], .ok ⟨e, m, .refl m⟩) := by
  rw [readState]
  split
  · rename_i absent
    simp [found] at absent
  · split <;> simp_all

theorem readState_underway (found : set.get? name = some rules)
    (underway : m.mark name = .underway) :
    m.readState includer name = ([.returns m.path name],
      .error (.circularInclude (m.path.drop ((m.path.idxOf? name).getD 0) ++ [name]))) := by
  rw [readState]
  split
  · rename_i absent
    simp [found] at absent
  · split <;> simp_all

theorem readState_untouched (found : set.get? name = some rules)
    (untouched : m.mark name = .untouched) :
    m.readState includer name =
      let inner := (m.begin name).readFrom ⟨name, []⟩ 0 rules (RuleSet.written_state found)
      (.reads (m.path ++ [name]) ⟨name, []⟩ :: inner.1, inner.2.map Reading.finish) := by
  rw [readState]
  split
  · rename_i absent
    simp [found] at absent
  · rename_i rules' found'
    obtain rfl := Option.some.inj (found.symm.trans found')
    split
    · simp_all
    · simp_all
    · rfl

variable {written : (set.listAt? place).map (List.drop index) = some (rule :: rest)}

theorem readFrom_including (names : rule.includes = some target) (alone : rule.includesMore = false) :
    m.readFrom place index (rule :: rest) written =
      match m.readState place target with
      | (deeds, .error e) => (deeds, .error e)
      | (deeds, .ok first) =>
        let tail := first.marks.readFrom place (index + 1) rest (RuleSet.written_tail written)
        (deeds ++ tail.1, tail.2.map (fun r => r.after first.within (fun e => { e with
          rules := first.expansion.rules ++ e.rules
          inherited := first.expansion.defaultToken.or e.inherited }))) := by
  rw [readFrom]
  rcases found : m.readState place target with ⟨deeds, fault | first⟩ <;>
    simp only [names, alone, found, Bool.false_eq_true, if_false]

theorem readFrom_default (plain : rule.includes = none) (gives : rule.defaultToken = some kind)
    (alone : rule.defaultsMore = false) :
    m.readFrom place index (rule :: rest) written =
      let tail := m.readFrom place (index + 1) rest (RuleSet.written_tail written)
      (tail.1, tail.2.map (fun r => r.after (.refl m) (fun e => { e with own := some kind }))) := by
  rw [readFrom]
  simp only [plain, gives, alone, Bool.false_eq_true, if_false]

theorem readFrom_matching (plain : rule.includes = none) (gives : rule.defaultToken = none) :
    m.readFrom place index (rule :: rest) written =
      let tail := m.readFrom place (index + 1) rest (RuleSet.written_tail written)
      (tail.1, tail.2.map (fun r => r.after (.refl m) (fun e => { e with
        rules := ⟨place, index, rule, RuleSet.written_head written⟩ :: e.rules }))) := by
  rw [readFrom]
  simp only [plain, gives]

theorem readFrom_includesMore (names : rule.includes = some target)
    (more : rule.includesMore = true) : m.readFrom place index (rule :: rest) written =
      ([], .error (.malformed place.label index .includeWithOthers)) := by
  rw [readFrom]
  simp only [names, more, if_true]

theorem readFrom_defaultsMore (plain : rule.includes = none) (gives : rule.defaultToken = some kind)
    (more : rule.defaultsMore = true) : m.readFrom place index (rule :: rest) written =
      ([], .error (.malformed place.label index .defaultWithMatching)) := by
  rw [readFrom]
  simp only [plain, gives, more, if_true]

theorem outcome_including (names : rule.includes = some target) (alone : rule.includesMore = false) :
    (m.readFrom place index (rule :: rest) written).2 =
      (m.readState place target).2.bind (fun first =>
        (first.marks.readFrom place (index + 1) rest (RuleSet.written_tail written)).2.map (fun r =>
          r.after first.within (fun e => { e with
            rules := first.expansion.rules ++ e.rules
            inherited := first.expansion.defaultToken.or e.inherited }))) := by
  rw [readFrom_including names alone]
  obtain ⟨deeds, fault | first⟩ := m.readState place target <;> rfl

end

/-! ### Marks and path -/

/-- The states on a path are those that are underway, and none of them stands there twice. -/
structure Coherent (m : Marks set) (path : List String) : Prop where
  along : m.path = path
  underway : ∀ name, m.mark name = .underway ↔ name ∈ path
  distinct : path.Nodup

section

variable {m : Marks set} {path : List String} {name : String}

theorem coherent_nothing (set : RuleSet) : Coherent ({} : Marks set) [] :=
  ⟨rfl, fun name => by simp [mark], .nil⟩

theorem Coherent.not_mem (coherent : m.Coherent path) (untouched : m.mark name = .untouched) :
    name ∉ path := by
  rw [← coherent.underway name, untouched]
  simp

theorem Coherent.begin (coherent : m.Coherent path) (new : name ∉ path) :
    (m.begin name).Coherent (path ++ [name]) := by
  refine ⟨congrArg (· ++ [name]) coherent.along, fun other => ?_, ?_⟩
  · rw [mark_begin]
    by_cases same : other = name
    · simp [same]
    · simp [same, coherent.underway other]
  · refine List.nodup_append.mpr ⟨coherent.distinct, by simp, fun a inside b here same => ?_⟩
    obtain rfl := List.mem_singleton.mp here
    exact new (same ▸ inside)

theorem Coherent.new (coherent : m.Coherent (path ++ [name])) : name ∉ path :=
  fun inside => (List.nodup_append.mp coherent.distinct).2.2 name inside name (by simp) rfl

theorem Coherent.finish (coherent : m.Coherent (path ++ [name])) (e : Expansion set) :
    (m.finish name e).Coherent path := by
  refine ⟨?_, fun other => ?_, (List.nodup_append.mp coherent.distinct).1⟩
  · rw [Marks.finish, coherent.along, List.dropLast_concat]
  · rw [mark_finish]
    by_cases same : other = name
    · simp [same, coherent.new]
    · simp [same, coherent.underway other]

theorem drop_idxOf? (again : name ∈ path) :
    path.drop ((path.idxOf? name).getD 0) = path.dropWhile (· != name) := by
  induction path with
  | nil => simp at again
  | cons head path ih =>
    by_cases same : head = name
    · simp [List.idxOf?_cons, same]
    · obtain ⟨i, found⟩ : ∃ i, path.idxOf? name = some i :=
        Option.isSome_iff_exists.mp (List.isSome_idxOf?.mpr (by simpa [Ne.symm same] using again))
      have later := ih (List.isSome_idxOf?.mp (found ▸ rfl))
      rw [found, Option.getD_some] at later
      simp [List.idxOf?_cons, same, found, later]

end

end Marks

end StackLexer
