import StackLexer.Json.Draft

/-! Reading back what was printed.
The compact text of a value without numbers is read as that value, with the members of objects in the
order in which they are written, and what follows the text is left to whoever asked for the value. The
value may not nest deeper than is left of the depth limit. -/

namespace StackLexer.Json

/-! ### Strings -/

theorem hexDigit?_hexDigit {n : Nat} (small : n < 16) : Unicode.hexDigit? (hexDigit n) = some n := by
  have all : ∀ i : Fin 16, Unicode.hexDigit? (hexDigit i) = some i.val := by decide
  exact all ⟨n, small⟩

theorem escape_control {c : Char} (control : c.toNat < 32) (rest : List Char) :
    escape ('u' :: '0' :: '0' :: hexDigit (c.toNat / 16) :: hexDigit (c.toNat % 16) :: rest) =
      .ok (c, rest) := by
  have high : Unicode.hexDigit? (hexDigit (c.toNat / 16)) = some (c.toNat / 16) :=
    hexDigit?_hexDigit (by omega)
  have low : Unicode.hexDigit? (hexDigit (c.toNat % 16)) = some (c.toNat % 16) :=
    hexDigit?_hexDigit (by omega)
  have zero : Unicode.hexDigit? '0' = some 0 := by decide
  have four : fourHex ('0' :: '0' :: hexDigit (c.toNat / 16) :: hexDigit (c.toNat % 16) :: rest) =
      .ok (c.toNat, rest) := by
    simp only [fourHex, zero, high, low, Except.ok.injEq, Prod.mk.injEq, and_true]
    omega
  have noPair : c.toNat < 0xD800 ∨ 0xDBFF < c.toNat := by omega
  have noLow : ¬ (0xDC00 ≤ c.toNat ∧ c.toNat ≤ 0xDFFF) := by omega
  simp only [escape, unicodeEscape, four, bind, Except.bind, if_neg noLow, if_pos noPair,
    Char.ofNat_toNat]

theorem stringBody_escape {c : Char} {text rest : List Char} (h : escape text = .ok (c, rest))
    (read : List Char) : stringBody read ('\\' :: text) = stringBody (c :: read) rest := by
  rw [stringBody]
  split
  · rename_i c' more found
    obtain ⟨rfl, rfl⟩ := Prod.mk.inj (Except.ok.inj (found.symm.trans h))
    rfl
  · rename_i f failed
    simp [h] at failed

theorem stringBody_plain {c : Char} (noQuote : c ≠ '"') (noEscape : c ≠ '\\')
    (printable : ¬ c.toNat < 32) (read rest : List Char) :
    stringBody read (c :: rest) = stringBody (c :: read) rest := by
  rw [stringBody]
  · rw [if_neg printable]
  · exact noQuote
  · exact noEscape

theorem stringBody_escapeChar (c : Char) (read rest : List Char) :
    stringBody read (escapeChar c ++ rest) = stringBody (c :: read) rest := by
  unfold escapeChar
  split
  case h_8 noQuote noBackslash _ _ _ _ _ =>
    split
    · rename_i control
      exact stringBody_escape (escape_control control rest) read
    · rename_i printable
      exact stringBody_plain noQuote noBackslash printable read rest
  all_goals exact stringBody_escape rfl read

theorem stringBody_escaped (chars read rest : List Char) :
    stringBody read (chars.flatMap escapeChar ++ '"' :: rest) =
      .ok (String.ofList (read.reverse ++ chars), rest) := by
  induction chars generalizing read with
  | nil => simp [stringBody]
  | cons c chars ih =>
    rw [List.flatMap_cons, List.append_assoc, stringBody_escapeChar, ih]
    simp

theorem stringBody_quoted (s : String) (rest : List Char) :
    stringBody [] (s.toList.flatMap escapeChar ++ '"' :: rest) = .ok (s, rest) := by
  rw [stringBody_escaped]
  simp

/-! ### Values -/

mutual

def depth : Json → Nat
  | array items => depthOfItems items + 1
  | object members => depthOfMembers members + 1
  | _ => 0

def depthOfItems : List Json → Nat
  | [] => 0
  | item :: rest => max item.depth (depthOfItems rest)

def depthOfMembers : List (String × Json) → Nat
  | [] => 0
  | (_, value) :: rest => max value.depth (depthOfMembers rest)

end

mutual

def Wordy : Json → Prop
  | number _ => False
  | array items => WordyItems items
  | object members => WordyMembers members
  | _ => True

def WordyItems : List Json → Prop
  | [] => True
  | item :: rest => item.Wordy ∧ WordyItems rest

def WordyMembers : List (String × Json) → Prop
  | [] => True
  | (_, value) :: rest => value.Wordy ∧ WordyMembers rest

end

mutual

def asWritten : Json → Draft
  | null => .null
  | bool b => .bool b
  | number n => .number n
  | string s => .string s
  | array items => .array (asWrittenItems items) none
  | object members => .object (asWrittenMembers members) none

def asWrittenItems : List Json → List Draft
  | [] => []
  | item :: rest => item.asWritten :: asWrittenItems rest

def asWrittenMembers : List (String × Json) → List (String × Draft)
  | [] => []
  | (key, value) :: rest => (key, value.asWritten) :: asWrittenMembers rest

end

def Step.outcome : Step → Draft × Option Fault
  | .stop draft trailing => (draft, trailing)
  | .go want frames rest => run want frames rest

theorem run_cons {c : Char} (visible : isBlank c = false) (want : Want) (frames : List Frame)
    (rest : List Char) : run want frames (c :: rest) = (step want frames c rest).outcome := by
  rw [run]
  simp only [visible, Bool.false_eq_true, if_false]
  split
  · rename_i stopped
    rw [stopped]
    rfl
  · rename_i goes
    rw [goes]
    rfl

/-- One reading comes to the same as another, if what comes of it is accepted at all. -/
def Leads (accepts : Draft × Option Fault → Prop) (read other : Draft × Option Fault) : Prop :=
  accepts read → read = other

theorem Leads.trans {accepts : Draft × Option Fault → Prop} {a b c : Draft × Option Fault}
    (first : Leads accepts a b) (second : Leads accepts b c) : Leads accepts a c := by
  intro accepted
  have same := first accepted
  exact same.trans (second (same ▸ accepted))

/-- Wherever a value may stand that nests so deep, the text is read as the draft. It begins like no end
of an array. -/
inductive Readable (accepts : Draft × Option Fault → Prop) (text : List Char) (draft : Draft)
    (depth : Nat) : Prop
  | intro (c : Char) (more : List Char) (begins : text = c :: more) (visible : isBlank c = false)
      (noEnd : c ≠ ']')
      (reads : ∀ (frames : List Frame) (rest : List Char), frames.length + depth ≤ depthLimit →
        Leads accepts (startValue c (more ++ rest) frames).outcome (run (.after draft) frames rest))

section

variable {accepts : Draft × Option Fault → Prop} {text : List Char} {draft : Draft} {depth : Nat}
  {frames : List Frame} {done : List Draft}

theorem Readable.value (readable : Readable accepts text draft depth)
    (shallow : frames.length + depth ≤ depthLimit) (rest : List Char) :
    Leads accepts (run .value frames (text ++ rest)) (run (.after draft) frames rest) := by
  obtain ⟨c, more, rfl, visible, _, reads⟩ := readable
  rw [List.cons_append, run_cons visible]
  exact reads frames rest shallow

theorem Readable.item (readable : Readable accepts text draft depth)
    (shallow : frames.length + 1 + depth ≤ depthLimit) (rest : List Char) :
    Leads accepts (run .item (.list done :: frames) (text ++ rest))
      (run (.after draft) (.list done :: frames) rest) := by
  obtain ⟨c, more, rfl, visible, noEnd, reads⟩ := readable
  rw [List.cons_append, run_cons visible]
  simp only [step, noEnd, if_false]
  exact reads (.list done :: frames) rest shallow

theorem Readable.firstItem (readable : Readable accepts text draft depth)
    (shallow : frames.length + 1 + depth ≤ depthLimit) (rest : List Char) :
    Leads accepts (run .firstItem (.list done :: frames) (text ++ rest))
      (run (.after draft) (.list done :: frames) rest) := by
  obtain ⟨c, more, rfl, visible, noEnd, reads⟩ := readable
  rw [List.cons_append, run_cons visible]
  simp only [step, noEnd, if_false]
  exact reads (.list done :: frames) rest shallow

end

variable {accepts : Draft × Option Fault → Prop}

def printMoreItems : List Json → List Char
  | [] => []
  | item :: rest => ',' :: printItems (item :: rest)

theorem printItems_cons (item : Json) (rest : List Json) :
    printItems (item :: rest) = item.print ++ printMoreItems rest := by
  cases rest <;> simp [printItems, printMoreItems]

theorem run_moreItems {items : List Json} {frames : List Frame}
    (readable : ∀ item ∈ items, Readable accepts item.print item.asWritten item.depth)
    (shallow : frames.length + 1 + depthOfItems items ≤ depthLimit) (draft : Draft)
    (done : List Draft) (rest : List Char) :
    Leads accepts (run (.after draft) (.list done :: frames) (printMoreItems items ++ ']' :: rest))
      (run (.after (.array ((draft :: done).reverse ++ asWrittenItems items) none)) frames rest) := by
  -- The frame takes in each value that has been read, so the induction is on the items after it.
  induction items generalizing draft done with
  | nil =>
    rw [printMoreItems, List.nil_append, run_cons (by decide), asWrittenItems, List.append_nil]
    exact fun _ => rfl
  | cons item items ih =>
    simp only [depthOfItems] at shallow
    have first := readable item List.mem_cons_self
    have others := ih (fun i inside => readable i (List.mem_cons_of_mem _ inside)) (by omega)
      item.asWritten (draft :: done)
    rw [printMoreItems, printItems_cons, List.cons_append, List.append_assoc, run_cons (by decide)]
    have comma : (step (.after draft) (.list done :: frames) ','
        (item.print ++ (printMoreItems items ++ ']' :: rest))).outcome =
        run .item (.list (draft :: done) :: frames)
          (item.print ++ (printMoreItems items ++ ']' :: rest)) := rfl
    rw [comma]
    refine (first.item (by omega) _).trans ?_
    simpa [asWrittenItems] using others

theorem readable_array {items : List Json}
    (readable : ∀ item ∈ items, Readable accepts item.print item.asWritten item.depth) :
    Readable accepts (array items).print (array items).asWritten (array items).depth := by
  refine .intro '[' (printItems items ++ [']']) (by rw [print]; rfl) (by decide) (by decide) ?_
  intro frames rest shallow
  simp only [Json.depth] at shallow
  have room : ¬ frames.length ≥ depthLimit := by omega
  have opens : (startValue '[' (printItems items ++ [']'] ++ rest) frames).outcome =
      run .firstItem (.list [] :: frames) (printItems items ++ ']' :: rest) := by
    simp [startValue, room, Step.outcome]
  rw [opens, asWritten]
  cases items with
  | nil =>
    rw [printItems, List.nil_append, run_cons (by decide)]
    exact fun _ => rfl
  | cons item items =>
    simp only [depthOfItems] at shallow
    have first := readable item List.mem_cons_self
    have others : ∀ i ∈ items, Readable accepts i.print i.asWritten i.depth :=
      fun i inside => readable i (List.mem_cons_of_mem _ inside)
    rw [printItems_cons, List.append_assoc]
    refine (first.firstItem (by omega) _).trans ?_
    exact run_moreItems others (by omega) item.asWritten [] rest

def printMoreMembers : List (String × Json) → List Char
  | [] => []
  | member :: rest => ',' :: printMembers (member :: rest)

theorem printMembers_cons (key : String) (value : Json) (rest : List (String × Json)) :
    printMembers ((key, value) :: rest) =
      quote key ++ ':' :: (value.print ++ printMoreMembers rest) := by
  cases rest <;> simp [printMembers, printMoreMembers]

section

variable {frames : List Frame} {done : List (String × Draft)} {key : String} {value : Json}

theorem run_member {want : Want} {last : String} (wants : want = .firstKey ∨ want = .key)
    (readable : Readable accepts value.print value.asWritten value.depth)
    (shallow : frames.length + 1 + value.depth ≤ depthLimit) (rest : List Char) :
    Leads accepts (run want (.members done last :: frames) (quote key ++ ':' :: (value.print ++ rest)))
      (run (.after value.asWritten) (.members done key :: frames) rest) := by
  have body := stringBody_quoted key (':' :: (value.print ++ rest))
  have opens : run want (.members done last :: frames) (quote key ++ ':' :: (value.print ++ rest)) =
      run .colon (.members done key :: frames) (':' :: (value.print ++ rest)) := by
    rw [quote, List.append_assoc, List.cons_append, run_cons (by decide)]
    rcases wants with rfl | rfl <;> simp [step, startKey, body, Step.outcome]
  have colon : run .colon (.members done key :: frames) (':' :: (value.print ++ rest)) =
      run .value (.members done key :: frames) (value.print ++ rest) := run_cons (by decide) _ _ _
  rw [opens, colon]
  have room : (Frame.members done key :: frames).length + value.depth ≤ depthLimit := shallow
  exact readable.value room rest

theorem run_moreMembers {members : List (String × Json)}
    (readable : ∀ m ∈ members, Readable accepts m.2.print m.2.asWritten m.2.depth)
    (shallow : frames.length + 1 + depthOfMembers members ≤ depthLimit) (key : String) (draft : Draft)
    (done : List (String × Draft)) (rest : List Char) :
    Leads accepts
      (run (.after draft) (.members done key :: frames) (printMoreMembers members ++ '\x7d' :: rest))
      (run (.after (.object (((key, draft) :: done).reverse ++ asWrittenMembers members) none)) frames
        rest) := by
  induction members generalizing key draft done with
  | nil =>
    rw [printMoreMembers, List.nil_append, run_cons (by decide), asWrittenMembers, List.append_nil]
    exact fun _ => rfl
  | cons member members ih =>
    obtain ⟨next, value⟩ := member
    simp only [depthOfMembers] at shallow
    have first : Readable accepts value.print value.asWritten value.depth :=
      readable (next, value) List.mem_cons_self
    have others := ih (fun m inside => readable m (List.mem_cons_of_mem _ inside)) (by omega)
      next value.asWritten ((key, draft) :: done)
    rw [printMoreMembers, printMembers_cons, List.cons_append, run_cons (by decide)]
    have comma : ∀ text, (step (.after draft) (.members done key :: frames) ',' text).outcome =
        run .key (.members ((key, draft) :: done) "" :: frames) text := fun _ => rfl
    rw [comma, List.append_assoc, List.cons_append, List.append_assoc]
    refine (run_member (.inr rfl) first (by omega) _).trans ?_
    simpa [asWrittenMembers] using others

theorem readable_object {members : List (String × Json)}
    (readable : ∀ m ∈ members, Readable accepts m.2.print m.2.asWritten m.2.depth) :
    Readable accepts (object members).print (object members).asWritten (object members).depth := by
  refine .intro '\x7b' (printMembers members ++ ['\x7d']) (by rw [print]; rfl) (by decide)
    (by decide) ?_
  intro frames rest shallow
  simp only [Json.depth] at shallow
  have room : ¬ frames.length ≥ depthLimit := by omega
  have opens : (startValue '\x7b' (printMembers members ++ ['\x7d'] ++ rest) frames).outcome =
      run .firstKey (.members [] "" :: frames) (printMembers members ++ '\x7d' :: rest) := by
    simp [startValue, room, Step.outcome]
  rw [opens, asWritten]
  cases members with
  | nil =>
    rw [printMembers, List.nil_append, run_cons (by decide)]
    exact fun _ => rfl
  | cons member members =>
    obtain ⟨key, value⟩ := member
    simp only [depthOfMembers] at shallow
    have first : Readable accepts value.print value.asWritten value.depth :=
      readable (key, value) List.mem_cons_self
    have others : ∀ m ∈ members, Readable accepts m.2.print m.2.asWritten m.2.depth :=
      fun m inside => readable m (List.mem_cons_of_mem _ inside)
    rw [printMembers_cons, List.append_assoc, List.cons_append, List.append_assoc]
    refine (run_member (.inl rfl) first (by omega) _).trans ?_
    exact run_moreMembers others (by omega) key value.asWritten [] rest

end

theorem readable_scalar {c : Char} {more : List Char} {draft : Draft} (visible : isBlank c = false)
    (noEnd : c ≠ ']') (noArray : c ≠ '[') (noObject : c ≠ '\x7b')
    (reads : ∀ rest, scalar c (more ++ rest) = .ok (draft, rest)) (depth : Nat) :
    Readable accepts (c :: more) draft depth := by
  refine .intro c more rfl visible noEnd fun frames rest _ _ => ?_
  rw [startValue, if_neg noArray, if_neg noObject, reads]
  rfl

mutual

/-- A value is read back, provided that there are no numbers in it or that numbers are. -/
theorem readable_print (json : Json)
    (readable : json.Wordy ∨ ∀ n, Readable accepts (number n).print (number n).asWritten 0) :
    Readable accepts json.print json.asWritten json.depth := by
  match json with
  | null =>
    exact readable_scalar (by decide) (by decide) (by decide) (by decide) (fun rest => rfl) 0
  | bool true =>
    exact readable_scalar (by decide) (by decide) (by decide) (by decide) (fun rest => rfl) 0
  | bool false =>
    exact readable_scalar (by decide) (by decide) (by decide) (by decide) (fun rest => rfl) 0
  | number n =>
    have numbers := readable.resolve_left (by simp [Wordy])
    exact numbers n
  | string s =>
    refine readable_scalar (by decide) (by decide) (by decide) (by decide) (fun rest => ?_) 0
    have body := stringBody_quoted s rest
    simp [scalar, body, Except.map, asWritten]
  | array items => exact readable_array (readable_items items (by simpa [Wordy] using readable))
  | object members =>
    exact readable_object (readable_members members (by simpa [Wordy] using readable))

theorem readable_items (items : List Json)
    (readable : WordyItems items ∨ ∀ n, Readable accepts (number n).print (number n).asWritten 0) :
    ∀ item ∈ items, Readable accepts item.print item.asWritten item.depth := by
  match items with
  | [] => simp
  | first :: rest =>
    have here := readable_print first (readable.imp_left (by simp +contextual [WordyItems]))
    have others := readable_items rest (readable.imp_left (by simp +contextual [WordyItems]))
    exact List.forall_mem_cons.mpr ⟨here, others⟩

theorem readable_members (members : List (String × Json))
    (readable : WordyMembers members ∨ ∀ n, Readable accepts (number n).print (number n).asWritten 0) :
    ∀ m ∈ members, Readable accepts m.2.print m.2.asWritten m.2.depth := by
  match members with
  | [] => simp
  | (key, value) :: rest =>
    have here := readable_print value (readable.imp_left (by simp +contextual [WordyMembers]))
    have others := readable_members rest (readable.imp_left (by simp +contextual [WordyMembers]))
    exact List.forall_mem_cons.mpr ⟨here, others⟩

end

theorem leads_compact {json : Json}
    (readable : json.Wordy ∨ ∀ n, Readable accepts (number n).print (number n).asWritten 0)
    (shallow : json.depth ≤ depthLimit) :
    Leads accepts (Draft.read json.compact) (json.asWritten, none) := by
  have room : ([] : List Frame).length + json.depth ≤ depthLimit := by simpa using shallow
  have reads := (readable_print json readable).value room []
  rw [List.append_nil, run.eq_def (.after json.asWritten)] at reads
  rw [Draft.read, compact, String.toList_ofList]
  exact reads

/-- A value without numbers is read from its compact text, if it nests no deeper than is allowed. -/
theorem read_compact {json : Json} (wordy : json.Wordy) (shallow : json.depth ≤ depthLimit) :
    Draft.read json.compact = (json.asWritten, none) := by
  have leads : Leads (fun _ => True) (Draft.read json.compact) (json.asWritten, none) :=
    leads_compact (.inl wordy) shallow
  exact leads trivial

end StackLexer.Json
