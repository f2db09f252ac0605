import StackLexer.Proofs.Json.Reading

/-! What remains of a text in its draft.
Nothing that has been read is dropped again, and a fault that is met stays where it was met. So once a
number or a fault has been met there is one in the draft, and a text whose draft has none is that of a
value without numbers. -/

namespace StackLexer.Json

inductive Draft.Wordy : Draft → Prop
  | null : Wordy .null
  | bool (value : Bool) : Wordy (.bool value)
  | string (value : String) : Wordy (.string value)
  | array {items : List Draft} (each : ∀ item ∈ items, Wordy item) : Wordy (.array items none)
  | object {members : List (String × Draft)} (each : ∀ m ∈ members, Wordy m.2) :
      Wordy (.object members none)

namespace Draft

theorem not_wordy_fault (f : Fault) : ¬ (fault f).Wordy := nofun

theorem not_wordy_number (n : Number) : ¬ (number n).Wordy := nofun

theorem wordy_array {items : List Draft} {rest : Option Fault} :
    (array items rest).Wordy ↔ (∀ item ∈ items, item.Wordy) ∧ rest = none := by
  constructor
  · rintro ⟨⟩
    rename_i each
    exact ⟨each, rfl⟩
  · rintro ⟨each, rfl⟩
    exact .array each

theorem wordy_object {members : List (String × Draft)} {rest : Option Fault} :
    (object members rest).Wordy ↔ (∀ m ∈ members, m.2.Wordy) ∧ rest = none := by
  constructor
  · rintro ⟨⟩
    rename_i each
    exact ⟨each, rfl⟩
  · rintro ⟨each, rfl⟩
    exact .object each

attribute [simp] not_wordy_fault not_wordy_number wordy_array wordy_object

end Draft

/-! ### What has been read so far -/

def Frame.Wordy : Frame → Prop
  | .list items => ∀ item ∈ items, item.Wordy
  | .members done _ => ∀ m ∈ done, m.2.Wordy

def Want.Wordy : Want → Prop
  | .after draft => draft.Wordy
  | _ => True

def WordyAt (want : Want) (frames : List Frame) : Prop :=
  want.Wordy ∧ ∀ frame ∈ frames, frame.Wordy

def Step.Wordy : Step → Prop
  | .stop draft _ => draft.Wordy
  | .go want frames _ => WordyAt want frames

variable {want : Want} {frames outer : List Frame} {c : Char} {text : List Char}

theorem wordy_of_unwind {last : Draft} (wordy : (unwind last frames).Wordy) :
    last.Wordy ∧ ∀ frame ∈ frames, frame.Wordy := by
  induction frames generalizing last with
  | nil => exact ⟨wordy, by simp⟩
  | cons frame outer ih =>
    cases frame with
    | list items =>
      obtain ⟨closed, outer⟩ := ih wordy
      obtain ⟨items, here⟩ : (∀ item ∈ items, item.Wordy) ∧ last.Wordy := by
        simpa [or_imp, forall_and] using closed
      exact ⟨here, List.forall_mem_cons.mpr ⟨items, outer⟩⟩
    | members done key =>
      obtain ⟨closed, outer⟩ := ih wordy
      obtain ⟨done, here⟩ : (∀ m ∈ done, m.2.Wordy) ∧ last.Wordy := by
        simpa [or_imp, forall_and] using closed
      exact ⟨here, List.forall_mem_cons.mpr ⟨done, outer⟩⟩

theorem wordyAt_of_atEnd (wordy : (atEnd want frames).Wordy) : WordyAt want frames := by
  unfold atEnd at wordy
  split at wordy
  case h_1 => exact ⟨wordy, by simp⟩
  all_goals
    have impossible := (wordy_of_unwind wordy).1
    simp at impossible

theorem wordy_of_startValue (wordy : (startValue c text frames).Wordy) :
    ∀ frame ∈ frames, frame.Wordy := by
  have stopped {f : Fault} (wordy : (unwind (.fault f) frames).Wordy) :
      ∀ frame ∈ frames, frame.Wordy := (wordy_of_unwind wordy).2
  unfold startValue at wordy
  split at wordy
  · split at wordy
    · exact stopped wordy
    · exact (List.forall_mem_cons.mp wordy.2).2
  · split at wordy
    · split at wordy
      · exact stopped wordy
      · exact (List.forall_mem_cons.mp wordy.2).2
    · split at wordy
      · exact wordy.2
      · exact stopped wordy

theorem not_wordy_unwind {last : Draft} (met : ¬ last.Wordy) (frames : List Frame) :
    ¬ (unwind last frames).Wordy := fun wordy => met (wordy_of_unwind wordy).1

theorem wordy_of_startKey {done : List (String × Draft)} (key : String)
    (wordy : (startKey c text done outer).Wordy) :
    ∀ frame ∈ Frame.members done key :: outer, frame.Wordy := by
  have faulty (f : Fault) : ¬ (unwind (.object done.reverse (some f)) outer).Wordy :=
    not_wordy_unwind (by simp) outer
  unfold startKey at wordy
  split at wordy
  · split at wordy
    · obtain ⟨done, outer⟩ := List.forall_mem_cons.mp wordy.2
      exact List.forall_mem_cons.mpr ⟨done, outer⟩
    · exact absurd wordy (faulty _)
  · exact absurd wordy (faulty _)

theorem wordyAt_of_step_after {draft : Draft} (wordy : (step (.after draft) frames c text).Wordy) :
    WordyAt (.after draft) frames := by
  cases frames with
  | nil => exact ⟨wordy, by simp⟩
  | cons frame outer =>
    cases frame with
    | list items =>
      have faulty (f : Fault) : ¬ (unwind (.array (draft :: items).reverse (some f)) outer).Wordy :=
        not_wordy_unwind (by simp) outer
      simp only [step] at wordy
      split at wordy
      · obtain ⟨closed, outer⟩ := wordy
        obtain ⟨items, here⟩ : (∀ item ∈ items, item.Wordy) ∧ draft.Wordy := by
          simpa [Want.Wordy, or_imp, forall_and] using closed
        exact ⟨here, List.forall_mem_cons.mpr ⟨items, outer⟩⟩
      · split at wordy
        · obtain ⟨here, outer⟩ := List.forall_mem_cons.mp wordy.2
          obtain ⟨here, items⟩ := List.forall_mem_cons.mp here
          exact ⟨here, List.forall_mem_cons.mpr ⟨items, outer⟩⟩
        · exact absurd wordy (faulty _)
    | members done key =>
      have faulty (f : Fault) :
          ¬ (unwind (.object ((key, draft) :: done).reverse (some f)) outer).Wordy :=
        not_wordy_unwind (by simp) outer
      simp only [step] at wordy
      split at wordy
      · obtain ⟨closed, outer⟩ := wordy
        obtain ⟨done, here⟩ : (∀ m ∈ done, m.2.Wordy) ∧ draft.Wordy := by
          simpa [Want.Wordy, or_imp, forall_and] using closed
        exact ⟨here, List.forall_mem_cons.mpr ⟨done, outer⟩⟩
      · split at wordy
        · obtain ⟨here, outer⟩ := List.forall_mem_cons.mp wordy.2
          obtain ⟨here, done⟩ := List.forall_mem_cons.mp here
          exact ⟨here, List.forall_mem_cons.mpr ⟨done, outer⟩⟩
        · exact absurd wordy (faulty _)

theorem wordyAt_of_step_firstItem (wordy : (step .firstItem frames c text).Wordy) :
    WordyAt .firstItem frames := by
  refine ⟨trivial, ?_⟩
  match frames with
  | [] => simp
  | .members done key :: outer => exact wordy_of_startValue wordy
  | .list items :: outer =>
    simp only [step] at wordy
    split at wordy
    · obtain ⟨closed, outer⟩ := wordy
      have items : ∀ item ∈ items, item.Wordy := by simpa [Want.Wordy] using closed
      exact List.forall_mem_cons.mpr ⟨items, outer⟩
    · exact wordy_of_startValue wordy

theorem wordyAt_of_step_item (wordy : (step .item frames c text).Wordy) : WordyAt .item frames := by
  refine ⟨trivial, ?_⟩
  match frames with
  | [] => simp
  | .members done key :: outer => exact wordy_of_startValue wordy
  | .list items :: outer =>
    simp only [step] at wordy
    split at wordy
    · exact absurd wordy (not_wordy_unwind (by simp) outer)
    · exact wordy_of_startValue wordy

theorem wordyAt_of_step_firstKey (wordy : (step .firstKey frames c text).Wordy) :
    WordyAt .firstKey frames := by
  refine ⟨trivial, ?_⟩
  match frames with
  | [] => simp
  | .list items :: outer => exact wordy_of_startValue wordy
  | .members done key :: outer =>
    simp only [step] at wordy
    split at wordy
    · obtain ⟨closed, outer⟩ := wordy
      have done : ∀ m ∈ done, m.2.Wordy := by simpa [Want.Wordy] using closed
      exact List.forall_mem_cons.mpr ⟨done, outer⟩
    · exact wordy_of_startKey key wordy

theorem wordyAt_of_step_key (wordy : (step .key frames c text).Wordy) : WordyAt .key frames := by
  refine ⟨trivial, ?_⟩
  match frames with
  | [] => simp
  | .list items :: outer => exact wordy_of_startValue wordy
  | .members done key :: outer =>
    simp only [step] at wordy
    split at wordy
    · exact absurd wordy (not_wordy_unwind (by simp) outer)
    · exact wordy_of_startKey key wordy

/-- A step drops nothing of what has been read. -/
theorem wordyAt_of_step (wordy : (step want frames c text).Wordy) : WordyAt want frames := by
  cases want with
  | after draft => exact wordyAt_of_step_after wordy
  | value => exact ⟨trivial, wordy_of_startValue wordy⟩
  | firstItem => exact wordyAt_of_step_firstItem wordy
  | item => exact wordyAt_of_step_item wordy
  | firstKey => exact wordyAt_of_step_firstKey wordy
  | key => exact wordyAt_of_step_key wordy
  | colon =>
    simp only [step] at wordy
    split at wordy
    · exact ⟨trivial, wordy.2⟩
    · exact absurd wordy (not_wordy_unwind (by simp) frames)

theorem wordyAt_of_run (wordy : (run want frames text).1.Wordy) : WordyAt want frames := by
  -- From the end of the text backwards, over the steps of the run.
  fun_induction run want frames text with
  | case1 want frames => exact wordyAt_of_atEnd wordy
  | case2 want frames c rest blank ih => exact ih wordy
  | case3 want frames c rest visible draft trailing stopped =>
    have here : (step want frames c rest).Wordy := stopped ▸ wordy
    exact wordyAt_of_step here
  | case4 want frames c rest visible want' frames' rest' goes ih =>
    have here : (step want frames c rest).Wordy := goes ▸ ih wordy
    exact wordyAt_of_step here

/-! ### Numbers -/

def BeginsNumber (text : List Char) : Prop :=
  ∃ c more, text = c :: more ∧ (c = '-' ∨ c.isDigit ∨ c = 'N' ∨ c = 'i')

theorem BeginsNumber.append {front : List Char} (begins : BeginsNumber front) (back : List Char) :
    BeginsNumber (front ++ back) := by
  obtain ⟨c, more, rfl, first⟩ := begins
  exact ⟨c, more ++ back, rfl, first⟩

theorem BeginsNumber.take (begins : BeginsNumber text) {n : Nat} (some_ : 0 < n) :
    BeginsNumber (text.take n) := by
  obtain ⟨c, more, rfl, first⟩ := begins
  obtain ⟨n, rfl⟩ := Nat.exists_eq_succ_of_ne_zero (Nat.ne_of_gt some_)
  exact ⟨c, more.take n, rfl, first⟩

theorem beginsNumber_digits (n : Nat) : BeginsNumber (Decimal.text n) := by
  have digits : Decimal.text n = Nat.toDigits 10 n := by
    rw [Decimal.text, Nat.toString_eq_repr, Nat.repr_eq_ofList_toDigits, String.toList_ofList]
  rw [digits]
  cases shown : Nat.toDigits 10 n with
  | nil => exact absurd (congrArg List.length shown) (Nat.ne_of_gt Nat.length_toDigits_pos)
  | cons c more =>
    have digit : c.isDigit := Nat.isDigit_of_mem_toDigits (by decide) (by decide) (shown ▸ List.mem_cons_self)
    exact ⟨c, more, rfl, .inr (.inl digit)⟩

theorem beginsNumber_positional (d : Decimal.Digits) : BeginsNumber d.positional := by
  have digits := beginsNumber_digits d.digits
  unfold Decimal.Digits.positional
  dsimp only
  split
  · exact digits.append _
  · split
    · exact (digits.take (by omega)).append _
    · exact ⟨'0', _, rfl, by decide⟩

theorem beginsNumber_double (bits : UInt64) : BeginsNumber (Number.doubleText bits).toList := by
  unfold Number.doubleText
  rw [String.toList_append]
  split
  · exact ⟨'-', _, rfl, by decide⟩
  · rw [String.toList_empty, List.nil_append]
    cases Decimal.magnitude bits with
    | nan => exact ⟨'N', _, rfl, by decide⟩
    | infinite => exact ⟨'i', _, rfl, by decide⟩
    | zero => exact ⟨'0', _, rfl, by decide⟩
    | finite mantissa exponent narrow =>
      dsimp only
      split
      · rw [String.toList_ofList]
        exact (beginsNumber_positional _).append _
      · rw [String.toList_ofList, List.append_assoc, List.append_assoc]
        exact ((beginsNumber_digits _).take Nat.one_pos).append _

theorem beginsNumber_print (n : Number) : BeginsNumber (number n).print := by
  cases n with
  | double bits => exact beginsNumber_double bits
  | integer value =>
    cases value with
    | ofNat n => exact beginsNumber_digits n
    | negSucc n =>
      have signed : (number (.integer (.negSucc n))).print = '-' :: Decimal.text (n + 1) :=
        String.toList_append
      exact ⟨'-', _, signed, .inl rfl⟩

theorem not_wordy_numberFrom {d : Draft} {rest : List Char} (read : numberFrom c text = .ok (d, rest)) :
    ¬ d.Wordy := by
  have made {found : Except Fault (Numeral × List Char)}
      (read : (found >>= fun n => n.1.value >>= fun v => .ok (.number v, n.2)) = .ok (d, rest)) :
      ¬ d.Wordy := by
    obtain f | n := found
    · simp [bind, Except.bind] at read
    · cases value : n.1.value with
      | error f => simp [bind, Except.bind, value] at read
      | ok v =>
        simp only [bind, Except.bind, value, Except.ok.injEq, Prod.mk.injEq] at read
        exact read.1 ▸ Draft.not_wordy_number v
  unfold numberFrom at read
  split at read
  · exact made read
  · exact made read

theorem not_wordy_scalar {d : Draft} {rest : List Char} (begins : BeginsNumber (c :: text))
    (read : scalar c text = .ok (d, rest)) : ¬ d.Wordy := by
  obtain ⟨c, more, same, first⟩ := begins
  obtain ⟨rfl, rfl⟩ := List.cons.inj same
  rcases first with rfl | digit | rfl | rfl
  · have read : numberFrom '-' text = .ok (d, rest) := read
    exact not_wordy_numberFrom read
  · have letters : c ≠ 'n' ∧ c ≠ 't' ∧ c ≠ 'f' ∧ c ≠ '"' := by
      refine ⟨?_, ?_, ?_, ?_⟩ <;> rintro rfl <;> simp at digit
    obtain ⟨n, t, f, quote⟩ := letters
    simp only [scalar, n, t, f, quote, digit, if_false, or_true, if_true] at read
    exact not_wordy_numberFrom read
  · simp [scalar] at read
  · simp [scalar] at read

theorem BeginsNumber.not_wordy (begins : BeginsNumber (c :: text)) (frames : List Frame) :
    ¬ (startValue c text frames).Wordy := by
  have brackets : c ≠ '[' ∧ c ≠ '\x7b' := by
    obtain ⟨c, more, same, first⟩ := begins
    obtain ⟨rfl, rfl⟩ := List.cons.inj same
    constructor <;> rintro rfl <;> simp at first
  unfold startValue
  rw [if_neg brackets.1, if_neg brackets.2]
  split
  · rename_i read
    exact fun wordy => not_wordy_scalar begins read wordy.1
  · exact not_wordy_unwind (by simp) frames

theorem Step.wordy_of_outcome {s : Step} (wordy : s.outcome.1.Wordy) : s.Wordy := by
  cases s with
  | stop draft trailing => exact wordy
  | go want frames rest => exact wordyAt_of_run wordy

theorem readable_number (n : Number) :
    Readable (fun read => read.1.Wordy) (number n).print (number n).asWritten 0 := by
  obtain ⟨c, more, text, first⟩ := beginsNumber_print n
  have visible : isBlank c = false := by
    rcases first with rfl | digit | rfl | rfl
    · rfl
    · simp only [isBlank, Bool.or_eq_false_iff, decide_eq_false_iff_not]
      refine ⟨⟨⟨?_, ?_⟩, ?_⟩, ?_⟩ <;> rintro rfl <;> simp at digit
    · rfl
    · rfl
  have noEnd : c ≠ ']' := by
    rintro rfl
    simp at first
  refine .intro c more text visible noEnd (fun frames rest _ wordy => ?_)
  -- Nothing that comes of a number is accepted, so there is nothing to show of it.
  have begins : BeginsNumber (c :: (more ++ rest)) := ⟨c, _, rfl, first⟩
  exact absurd (Step.wordy_of_outcome wordy) (begins.not_wordy frames)

mutual

theorem wordy_asWritten (json : Json) : json.asWritten.Wordy ↔ json.Wordy := by
  match json with
  | null => simp [asWritten, Wordy, Draft.Wordy.null]
  | bool b => simp [asWritten, Wordy, Draft.Wordy.bool]
  | number n => simp [asWritten, Wordy]
  | string s => simp [asWritten, Wordy, Draft.Wordy.string]
  | array items => simp [asWritten, Wordy, wordy_asWrittenItems items]
  | object members => simp only [asWritten, Wordy, Draft.wordy_object, wordy_asWrittenMembers members, and_true]

theorem wordy_asWrittenItems (items : List Json) :
    (∀ d ∈ asWrittenItems items, d.Wordy) ↔ WordyItems items := by
  match items with
  | [] => simp [asWrittenItems, WordyItems]
  | item :: rest =>
    simp [asWrittenItems, WordyItems, wordy_asWritten item, wordy_asWrittenItems rest]

theorem wordy_asWrittenMembers (members : List (String × Json)) :
    (∀ m ∈ asWrittenMembers members, m.2.Wordy) ↔ WordyMembers members := by
  match members with
  | [] => simp [asWrittenMembers, WordyMembers]
  | (_, value) :: rest =>
    rw [asWrittenMembers, WordyMembers, List.forall_mem_cons, wordy_asWritten value,
      wordy_asWrittenMembers rest]

end

/-- A text is read as the draft of the value that was printed, unless there is a number or a fault in what is
read. -/
theorem read_of_wordy {json : Json} (shallow : json.depth ≤ depthLimit)
    (wordy : (Draft.read json.compact).1.Wordy) : Draft.read json.compact = (json.asWritten, none) :=
  leads_compact (.inr readable_number) shallow wordy

end StackLexer.Json
