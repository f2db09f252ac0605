import Mathlib
import StackLexer.Json.Pretty
import StackLexer.Proofs.Grammar.JsonForms
import StackLexer.Proofs.Json.Reading

/-! Reading back what was printed over several lines.
The blanks before an item or a member say nothing. A number is the one thing whose end is not seen until
after it, but what follows a value is a comma, a line feed or the end of the text, and a natural number of
64 bits is not rounded. -/

namespace StackLexer.Json

/-! ### Numbers -/

def endsNumber : List Char → Bool
  | [] => true
  | c :: _ => !(c.isDigit || c = '.' || c = 'e' || c = 'E')

section

variable {rest : List Char}

theorem takeWhile_isDigit (ends : endsNumber rest) : rest.takeWhile Char.isDigit = [] := by
  cases rest with
  | nil => rfl
  | cons c rest =>
    simp only [endsNumber, Bool.not_eq_true', Bool.or_eq_false_iff] at ends
    rw [List.takeWhile_cons, ends.1.1.1]
    rfl

theorem someDigits_append {found : List Char} (some_ : found ≠ []) (digits_ : ∀ c ∈ found, c.isDigit)
    (ends : endsNumber rest) : someDigits (found ++ rest) = .ok (found, rest) := by
  have taken : digits (found ++ rest) = found := by
    rw [digits, List.takeWhile_append_of_pos digits_, takeWhile_isDigit ends, List.append_nil]
  simp [someDigits, taken, some_]

theorem placesPart_of_endsNumber (ends : endsNumber rest) : placesPart rest = .ok (none, rest) := by
  unfold placesPart
  split
  · simp [endsNumber] at ends
  · rfl

theorem exponentPart_of_endsNumber (ends : endsNumber rest) : exponentPart rest = .ok (none, rest) := by
  unfold exponentPart
  split
  · simp [endsNumber] at ends
  · simp [endsNumber] at ends
  · rfl

end

theorem isDigit_toDigits (n : Nat) : ∀ c ∈ Nat.toDigits 10 n, c.isDigit := fun _ member =>
  Nat.isDigit_of_mem_toDigits (by decide) (by decide) member

theorem head?_toDigits {n : Nat} (pos : 0 < n) : (Nat.toDigits 10 n).head? ≠ some '0' := by
  induction n using Nat.strongRecOn with
  | ind n ih =>
    by_cases one : n < 10
    · have nonzero : ∀ d : Fin 10, 0 < d.val → d.val.digitChar ≠ '0' := by decide
      rw [Nat.toDigits_of_lt_base one]
      simpa using nonzero ⟨n, one⟩ pos
    · have first := ih (n / 10) (by omega) (by omega)
      rw [Nat.toDigits_of_base_le (by decide) (by omega), List.head?_append_of_ne_nil _ Nat.toDigits_ne_nil]
      exact first

theorem significand_of_lt {n : Nat} {cs : List Char} (small : Nat.ofDigitChars 10 cs n < 2 ^ 64) :
    significand n cs = (Nat.ofDigitChars 10 cs n, 0) := by
  induction cs generalizing n with
  | nil => rfl
  | cons c cs ih =>
    have next : Nat.ofDigitChars 10 (c :: cs) n = Nat.ofDigitChars 10 cs (n * 10 + (c.toNat - 48)) := by
      rw [Nat.ofDigitChars_cons, Nat.mul_comm]
      rfl
    have power : 0 < 10 ^ cs.length := Nat.pow_pos (by decide)
    -- The significand so far is not above what it becomes with the digits that are left.
    have below : n * 10 + (c.toNat - 48) ≤ Nat.ofDigitChars 10 cs (n * 10 + (c.toNat - 48)) := by
      rw [Nat.ofDigitChars_eq_ofDigitChars_zero]
      exact (Nat.le_mul_of_pos_left _ power).trans (Nat.le_add_right _ _)
    rw [next] at small ⊢
    have fits : n * 10 + (c.toNat - 48) < 0x10000000000000000 := below.trans_lt small
    rw [significand, if_pos fits]
    exact ih small

theorem numeral_toDigits (n : Nat) {rest : List Char} (ends : endsNumber rest) :
    numeral false (Nat.toDigits 10 n ++ rest) = .ok (⟨false, Nat.toDigits 10 n, none, none⟩, rest) := by
  have whole := someDigits_append Nat.toDigits_ne_nil (isDigit_toDigits n) ends
  have noZero : ¬ ((Nat.toDigits 10 n).head? = some '0' ∧ (Nat.toDigits 10 n).length > 1) := by
    rintro ⟨zero, long⟩
    rcases Nat.eq_zero_or_pos n with rfl | pos
    · simp at long
    · exact head?_toDigits pos zero
  simp only [numeral, whole, bind, Except.bind, if_neg noZero, placesPart_of_endsNumber ends,
    exponentPart_of_endsNumber ends]

theorem value_toDigits {n : Nat} (small : n < 2 ^ 64) :
    Numeral.value ⟨false, Nat.toDigits 10 n, none, none⟩ = .ok (.integer n) := by
  have back : Nat.ofDigitChars 10 (Nat.toDigits 10 n) 0 = n := Nat.ofDigitChars_ten_toDigits
  have whole : significand 0 (Nat.toDigits 10 n) = (n, 0) := by
    rw [significand_of_lt (back.symm ▸ small), back]
  simp [Numeral.value, whole]

theorem ne_of_isDigit {c other : Char} (digit : c.isDigit) (no : other.isDigit = false) : c ≠ other := by
  rintro rfl
  exact Bool.false_ne_true (no.symm.trans digit)

theorem scalar_of_isDigit {c : Char} (digit : c.isDigit) (rest : List Char) :
    scalar c rest = numberFrom c rest := by
  have apart {other : Char} (no : other.isDigit = false) : c ≠ other := ne_of_isDigit digit no
  rw [scalar, if_neg (apart rfl), if_neg (apart rfl), if_neg (apart rfl), if_neg (apart rfl),
    if_pos (.inr digit)]

theorem scalar_toDigits {n : Nat} (small : n < 2 ^ 64) {c : Char} {more : List Char}
    (written : Nat.toDigits 10 n = c :: more) {rest : List Char} (ends : endsNumber rest) :
    scalar c (more ++ rest) = .ok (.number (.integer n), rest) := by
  have digit : c.isDigit := isDigit_toDigits n c (written ▸ List.mem_cons_self)
  have unsigned : c ≠ '-' := ne_of_isDigit digit rfl
  have read := numeral_toDigits n ends
  rw [written, List.cons_append] at read
  have value := value_toDigits small
  rw [written] at value
  simp only [scalar_of_isDigit digit, numberFrom, if_neg unsigned, read, value, bind, Except.bind]

/-! ### Values -/

mutual

def Natural : Json → Prop
  | number n => ∃ i : Nat, i < 2 ^ 64 ∧ n = .integer i
  | array items => NaturalItems items
  | object members => NaturalMembers members
  | _ => True

def NaturalItems : List Json → Prop
  | [] => True
  | item :: rest => item.Natural ∧ NaturalItems rest

def NaturalMembers : List (String × Json) → Prop
  | [] => True
  | (_, value) :: rest => value.Natural ∧ NaturalMembers rest

end

/-- Wherever a value may stand, its text is read as the value. It begins like no end of an array. -/
structure Legible (json : Json) : Prop where
  begins : ∀ depth, ∃ c more, json.printLines depth = c :: more ∧ isBlank c = false ∧ c ≠ ']'
  reads : ∀ (depth : Nat) (frames : List Frame) (rest : List Char),
    frames.length + json.depth ≤ depthLimit → endsNumber rest →
      run .value frames (json.printLines depth ++ rest) = run (.after json.asWritten) frames rest

theorem run_newLine (want : Want) (frames : List Frame) (depth : Nat) (rest : List Char) :
    run want frames (newLine depth ++ rest) = run want frames rest := by
  have blanks (count : Nat) : run want frames (List.replicate count ' ' ++ rest) = run want frames rest := by
    induction count with
    | zero => rfl
    | succ count ih =>
      rw [List.replicate_succ, List.cons_append, run, if_pos (by decide)]
      exact ih
  rw [newLine, List.cons_append, run, if_pos (by decide)]
  exact blanks _

section

variable {want : Want} {frames : List Frame} {done : List Draft} {value : Json}

theorem Legible.item (legible : value.Legible) (wants : want = .firstItem ∨ want = .item) (depth : Nat)
    {rest : List Char} (shallow : frames.length + 1 + value.depth ≤ depthLimit) (ends : endsNumber rest) :
    run want (.list done :: frames) (newLine depth ++ (value.printLines depth ++ rest)) =
      run (.after value.asWritten) (.list done :: frames) rest := by
  obtain ⟨c, more, begins, visible, noEnd⟩ := legible.begins depth
  have reads := legible.reads depth (.list done :: frames) rest shallow ends
  rw [begins, List.cons_append, run_cons visible] at reads
  rw [run_newLine, begins, List.cons_append, run_cons visible, ← reads]
  rcases wants with rfl | rfl <;> simp only [step, noEnd, if_false]

theorem run_opensArray (room : frames.length < depthLimit) (text : List Char) :
    run .value frames ('[' :: text) = run .firstItem (.list [] :: frames) text := by
  rw [run_cons (by decide)]
  simp [step, startValue, Nat.not_le.mpr room, Step.outcome]

theorem run_opensObject (room : frames.length < depthLimit) (text : List Char) :
    run .value frames ('\x7b' :: text) = run .firstKey (.members [] "" :: frames) text := by
  rw [run_cons (by decide)]
  simp [step, startValue, Nat.not_le.mpr room, Step.outcome]

end

def printMoreItemLines (depth : Nat) : List Json → List Char
  | [] => []
  | item :: rest => ',' :: printItemLines depth (item :: rest)

theorem printItemLines_cons (depth : Nat) (item : Json) (rest : List Json) :
    printItemLines depth (item :: rest) =
      newLine depth ++ (item.printLines depth ++ printMoreItemLines depth rest) := by
  cases rest <;> simp [printItemLines, printMoreItemLines]

theorem endsNumber_moreItemLines (depth : Nat) (items : List Json) (outer : Nat) (rest : List Char) :
    endsNumber (printMoreItemLines depth items ++ (newLine outer ++ rest)) := by
  cases items <;> rfl

theorem run_moreItemLines {items : List Json} {frames : List Frame}
    (legible : ∀ item ∈ items, item.Legible)
    (shallow : frames.length + 1 + depthOfItems items ≤ depthLimit) (depth outer : Nat) (draft : Draft)
    (done : List Draft) (rest : List Char) :
    run (.after draft) (.list done :: frames)
        (printMoreItemLines depth items ++ (newLine outer ++ ']' :: rest)) =
      run (.after (.array ((draft :: done).reverse ++ asWrittenItems items) none)) frames rest := by
  -- The frame takes in each value that has been read, so the induction is on the items after it.
  induction items generalizing draft done with
  | nil =>
    rw [printMoreItemLines, List.nil_append, run_newLine, run_cons (by decide), asWrittenItems,
      List.append_nil]
    rfl
  | cons item items ih =>
    simp only [depthOfItems] at shallow
    have first := legible item List.mem_cons_self
    have others := ih (fun i inside => legible i (List.mem_cons_of_mem _ inside)) (by omega)
      item.asWritten (draft :: done)
    rw [printMoreItemLines, printItemLines_cons, List.cons_append, run_cons (by decide)]
    have comma : ∀ text, (step (.after draft) (.list done :: frames) ',' text).outcome =
        run .item (.list (draft :: done) :: frames) text := fun _ => rfl
    rw [comma, List.append_assoc, List.append_assoc, first.item (.inr rfl) depth (by omega)
      (endsNumber_moreItemLines depth items outer _), others]
    simp [asWrittenItems]

theorem legible_array {items : List Json} (legible : ∀ item ∈ items, item.Legible) :
    (array items).Legible := by
  -- Brackets around nothing are printed together, so that they are read apart from those around items.
  refine ⟨fun depth => ?_, fun depth frames rest shallow _ => ?_⟩
  · cases items with
    | nil => exact ⟨'[', _, by rw [printLines], by decide, by decide⟩
    | cons item items => exact ⟨'[', _, by rw [printLines]; rfl, by decide, by decide⟩
  · simp only [Json.depth] at shallow
    have room : frames.length < depthLimit := by omega
    cases items with
    | nil =>
      rw [printLines, List.cons_append, run_opensArray room, List.singleton_append, run_cons (by decide)]
      simp [step, Step.outcome, asWritten, asWrittenItems]
    | cons item items =>
      simp only [depthOfItems] at shallow
      have first := legible item List.mem_cons_self
      have others : ∀ i ∈ items, i.Legible := fun i inside => legible i (List.mem_cons_of_mem _ inside)
      have inside : frames.length + 1 + depthOfItems items ≤ depthLimit := by omega
      have more := run_moreItemLines others inside (depth + 1) depth item.asWritten [] rest
      rw [printLines, List.cons_append, List.cons_append, List.cons_append, run_opensArray room,
        printItemLines_cons]
      simp only [List.append_assoc, List.singleton_append]
      rw [first.item (.inl rfl) (depth + 1) (by omega) (endsNumber_moreItemLines _ items depth _), more]
      simp [asWritten, asWrittenItems]

def printMoreMemberLines (depth : Nat) : List (String × Json) → List Char
  | [] => []
  | member :: rest => ',' :: printMemberLines depth (member :: rest)

theorem printMemberLines_cons (depth : Nat) (key : String) (value : Json) (rest : List (String × Json)) :
    printMemberLines depth ((key, value) :: rest) =
      newLine depth ++ (quote key ++ ':' :: ' ' ::
        (value.printLines depth ++ printMoreMemberLines depth rest)) := by
  cases rest <;> simp [printMemberLines, printMoreMemberLines]

theorem endsNumber_moreMemberLines (depth : Nat) (members : List (String × Json)) (outer : Nat)
    (rest : List Char) : endsNumber (printMoreMemberLines depth members ++ (newLine outer ++ rest)) := by
  cases members <;> rfl

theorem run_memberLine {want : Want} {frames : List Frame} {done : List (String × Draft)}
    {key last : String} {value : Json} (legible : value.Legible) (wants : want = .firstKey ∨ want = .key)
    (depth : Nat) {rest : List Char} (shallow : frames.length + 1 + value.depth ≤ depthLimit)
    (ends : endsNumber rest) :
    run want (.members done last :: frames)
        (newLine depth ++ (quote key ++ ':' :: ' ' :: (value.printLines depth ++ rest))) =
      run (.after value.asWritten) (.members done key :: frames) rest := by
  have body := stringBody_quoted key (':' :: ' ' :: (value.printLines depth ++ rest))
  have opens : run want (.members done last :: frames)
      (quote key ++ ':' :: ' ' :: (value.printLines depth ++ rest)) =
        run .colon (.members done key :: frames) (':' :: ' ' :: (value.printLines depth ++ rest)) := by
    rw [quote, List.append_assoc, List.cons_append, run_cons (by decide)]
    rcases wants with rfl | rfl <;> simp [step, startKey, body, Step.outcome]
  have colon : run .colon (.members done key :: frames) (':' :: ' ' :: (value.printLines depth ++ rest)) =
      run .value (.members done key :: frames) (' ' :: (value.printLines depth ++ rest)) :=
    run_cons (by decide) _ _ _
  have blank : run .value (.members done key :: frames) (' ' :: (value.printLines depth ++ rest)) =
      run .value (.members done key :: frames) (value.printLines depth ++ rest) := by
    rw [run, if_pos (by decide)]
  rw [run_newLine, opens, colon, blank]
  exact legible.reads depth (.members done key :: frames) rest shallow ends

theorem run_moreMemberLines {members : List (String × Json)} {frames : List Frame}
    (legible : ∀ m ∈ members, m.2.Legible)
    (shallow : frames.length + 1 + depthOfMembers members ≤ depthLimit) (depth outer : Nat)
    (key : String) (draft : Draft) (done : List (String × Draft)) (rest : List Char) :
    run (.after draft) (.members done key :: frames)
        (printMoreMemberLines depth members ++ (newLine outer ++ '\x7d' :: rest)) =
      run (.after (.object (((key, draft) :: done).reverse ++ asWrittenMembers members) none)) frames
        rest := by
  induction members generalizing key draft done with
  | nil =>
    rw [printMoreMemberLines, List.nil_append, run_newLine, run_cons (by decide), asWrittenMembers,
      List.append_nil]
    rfl
  | cons member members ih =>
    obtain ⟨next, value⟩ := member
    simp only [depthOfMembers] at shallow
    have first : value.Legible := legible (next, value) List.mem_cons_self
    have others := ih (fun m inside => legible m (List.mem_cons_of_mem _ inside)) (by omega)
      next value.asWritten ((key, draft) :: done)
    rw [printMoreMemberLines, printMemberLines_cons, List.cons_append, run_cons (by decide)]
    have comma : ∀ text, (step (.after draft) (.members done key :: frames) ',' text).outcome =
        run .key (.members ((key, draft) :: done) "" :: frames) text := fun _ => rfl
    rw [comma]
    simp only [List.append_assoc, List.cons_append]
    rw [run_memberLine first (.inr rfl) depth (by omega)
      (endsNumber_moreMemberLines depth members outer _), others]
    simp [asWrittenMembers]

theorem legible_object {members : List (String × Json)} (legible : ∀ m ∈ members, m.2.Legible) :
    (object members).Legible := by
  refine ⟨fun depth => ?_, fun depth frames rest shallow _ => ?_⟩
  · cases members with
    | nil => exact ⟨'\x7b', _, by rw [printLines], by decide, by decide⟩
    | cons member members => exact ⟨'\x7b', _, by rw [printLines]; rfl, by decide, by decide⟩
  · simp only [Json.depth] at shallow
    have room : frames.length < depthLimit := by omega
    cases members with
    | nil =>
      rw [printLines, List.cons_append, run_opensObject room, List.singleton_append, run_cons (by decide)]
      simp [step, Step.outcome, asWritten, asWrittenMembers]
    | cons member members =>
      obtain ⟨key, value⟩ := member
      simp only [depthOfMembers] at shallow
      have first : value.Legible := legible (key, value) List.mem_cons_self
      have others : ∀ m ∈ members, m.2.Legible := fun m inside => legible m (List.mem_cons_of_mem _ inside)
      have inside : frames.length + 1 + depthOfMembers members ≤ depthLimit := by omega
      have more := run_moreMemberLines others inside (depth + 1) depth key value.asWritten [] rest
      rw [printLines, List.cons_append, List.cons_append, List.cons_append, run_opensObject room,
        printMemberLines_cons]
      simp only [List.append_assoc, List.cons_append, List.nil_append]
      rw [run_memberLine first (.inl rfl) (depth + 1) (by omega)
        (endsNumber_moreMemberLines _ members depth _), more]
      simp [asWritten, asWrittenMembers]

theorem legible_scalar {json : Json} {c : Char} {more : List Char}
    (printed : ∀ depth, json.printLines depth = c :: more) (visible : isBlank c = false) (noEnd : c ≠ ']')
    (noArray : c ≠ '[') (noObject : c ≠ '\x7b')
    (reads : ∀ rest, endsNumber rest → scalar c (more ++ rest) = .ok (json.asWritten, rest)) :
    json.Legible := by
  refine ⟨fun depth => ⟨c, more, printed depth, visible, noEnd⟩, fun depth frames rest _ ends => ?_⟩
  rw [printed, List.cons_append, run_cons visible, step.eq_def]
  simp only
  rw [startValue, if_neg noArray, if_neg noObject, reads rest ends]
  rfl

theorem legible_number {n : Nat} (small : n < 2 ^ 64) : (Json.nat n).Legible := by
  obtain ⟨c, more, written⟩ := List.exists_cons_of_ne_nil (Nat.toDigits_ne_nil : Nat.toDigits 10 n ≠ [])
  have digit : c.isDigit := isDigit_toDigits n c (written ▸ List.mem_cons_self)
  have apart {other : Char} (no : other.isDigit = false) : c ≠ other := ne_of_isDigit digit no
  have visible : isBlank c = false := by
    simp only [isBlank, Bool.or_eq_false_iff, decide_eq_false_iff_not]
    exact ⟨⟨⟨apart rfl, apart rfl⟩, apart rfl⟩, apart rfl⟩
  have printed (depth : Nat) : (Json.nat n).printLines depth = c :: more := by
    rw [Json.nat, printLines, ← written]
    exact Nat.toList_repr
  exact legible_scalar printed visible (apart rfl) (apart rfl) (apart rfl)
    (fun rest ends => scalar_toDigits small written ends)

mutual

theorem legible_of_natural (json : Json) (natural : json.Natural) : json.Legible := by
  match json with
  | null | bool true | bool false =>
    exact legible_scalar (fun depth => by rw [printLines]; rfl) (by decide) (by decide) (by decide)
      (by decide) (fun rest _ => rfl)
  | number n =>
    obtain ⟨i, small, rfl⟩ := natural
    exact legible_number small
  | string s =>
    refine legible_scalar (fun depth => by rw [printLines]; rfl) (by decide) (by decide) (by decide)
      (by decide) fun rest _ => ?_
    have body := stringBody_quoted s rest
    simp [scalar, body, Except.map, asWritten]
  | array items => exact legible_array (legible_items items natural)
  | object members => exact legible_object (legible_members members natural)

theorem legible_items (items : List Json) (natural : NaturalItems items) :
    ∀ item ∈ items, item.Legible := by
  match items with
  | [] => simp
  | first :: rest =>
    exact List.forall_mem_cons.mpr ⟨legible_of_natural first natural.1, legible_items rest natural.2⟩

theorem legible_members (members : List (String × Json)) (natural : NaturalMembers members) :
    ∀ m ∈ members, m.2.Legible := by
  match members with
  | [] => simp
  | (key, value) :: rest =>
    exact List.forall_mem_cons.mpr ⟨legible_of_natural value natural.1, legible_members rest natural.2⟩

end

/-- A value is read from its text over several lines, if it nests no deeper than is allowed. A line feed may
end the text. -/
theorem read_pretty {json : Json} (natural : json.Natural) (shallow : json.depth ≤ depthLimit) :
    Draft.read (json.pretty ++ "\n") = (json.asWritten, none) := by
  have room : ([] : List Frame).length + json.depth ≤ depthLimit := by simpa using shallow
  have reads := (legible_of_natural json natural).reads 0 [] ['\n'] room rfl
  have last : run (.after json.asWritten) [] ['\n'] = (json.asWritten, none) := by
    rw [run, if_pos (by decide), run]
    rfl
  have text : (json.pretty ++ "\n").toList = json.printLines 0 ++ ['\n'] := by
    rw [pretty, String.toList_append, String.toList_ofList]
    rfl
  rw [Draft.read, text, reads, last]

/-! ### What is read -/

def inOrder (json : Json) : Json := json.asWritten.toJson

theorem parse_pretty {json : Json} (natural : json.Natural) (shallow : json.depth ≤ depthLimit) :
    parse (json.pretty ++ "\n") = .ok json.inOrder := by
  rw [parse, read_pretty natural shallow]
  simp [fault?_asWritten, inOrder]

theorem inOrder_array (items : List Json) : (array items).inOrder = array (items.map inOrder) := by
  have each : Draft.toItems (asWrittenItems items) = items.map inOrder := by
    induction items with
    | nil => rfl
    | cons item items ih => rw [asWrittenItems, Draft.toItems, ih]; rfl
  rw [inOrder, asWritten, Draft.toJson, each]

theorem toMembers_asWrittenMembers (members : List (String × Json)) :
    Draft.toMembers (asWrittenMembers members) = members.map (fun m => (m.1, m.2.inOrder)) := by
  induction members with
  | nil => rfl
  | cons member members ih => rw [asWrittenMembers, Draft.toMembers, ih]; rfl

theorem member?_inOrder (json : Json) (key : String) :
    json.inOrder.member? key = (json.member? key).map inOrder := by
  cases json with
  | object members =>
    have sorted := Entries.sort_of_sorted (Entries.sorted_sort (members.map (fun m => (m.1, m.2.inOrder))))
    rw [inOrder, asWritten, Draft.toJson, toMembers_asWrittenMembers, member?_object, member?_object,
      ← Entries.lookup_sort_reverse, sorted, Entries.lookup_sort_reverse, ← List.map_reverse]
    exact Entries.lookup_map Function.injective_id inOrder members.reverse key
  | array items =>
    rw [inOrder_array]
    rfl
  | _ => rfl

theorem naturalItems_iff {items : List Json} : NaturalItems items ↔ ∀ item ∈ items, item.Natural := by
  induction items with
  | nil => simp [NaturalItems]
  | cons item items ih => simp [NaturalItems, ih]

theorem depthOfItems_le_iff {items : List Json} {bound : Nat} :
    depthOfItems items ≤ bound ↔ ∀ item ∈ items, item.depth ≤ bound := by
  induction items with
  | nil => simp [depthOfItems]
  | cons item items ih => simp [depthOfItems, ih]

end StackLexer.Json
