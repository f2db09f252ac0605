import StackLexer.Json.Value
import StackLexer.Unicode.Ranges

/-! Reading a JSON text as far as it goes.
A `Draft` is what has been read up to the first fault of the text: the value with the fault in the
place where it was met. Whoever looks at the draft from left to right meets the faults of the text
and his own objections in the order in which they occur. -/

namespace StackLexer.Json

inductive Fault where
  | endInList
  | endInObject
  | endInString
  | endInValue
  | expectedColon
  | expectedListCommaOrEnd
  | expectedObjectCommaOrEnd
  | expectedIdent
  | expectedValue
  | invalidEscape
  | invalidNumber
  | numberOutOfRange
  | controlCharacter
  | keyNotString
  | loneSurrogate
  | hexEscapeEnds
  | trailingComma
  | trailingCharacters
  | tooDeep
  deriving DecidableEq, Repr, Inhabited

def Fault.message : Fault → String
  | endInList => "EOF while parsing a list"
  | endInObject => "EOF while parsing an object"
  | endInString => "EOF while parsing a string"
  | endInValue => "EOF while parsing a value"
  | expectedColon => "expected `:`"
  | expectedListCommaOrEnd => "expected `,` or `]`"
  | expectedObjectCommaOrEnd => "expected `,` or `\x7d`"
  | expectedIdent => "expected ident"
  | expectedValue => "expected value"
  | invalidEscape => "invalid escape"
  | invalidNumber => "invalid number"
  | numberOutOfRange => "number out of range"
  | controlCharacter => "control character (\\u0000-\\u001F) found while parsing a string"
  | keyNotString => "key must be a string"
  | loneSurrogate => "lone leading surrogate in hex escape"
  | hexEscapeEnds => "unexpected end of hex escape"
  | trailingComma => "trailing comma"
  | trailingCharacters => "trailing characters"
  | tooDeep => "recursion limit exceeded"

def depthLimit : Nat := 127

inductive Draft where
  | fault (f : Fault)
  | null
  | bool (value : Bool)
  | number (value : Number)
  | string (value : String)
  /-- The items, and what stops the list if not its bracket or its last item. -/
  | array (items : List Draft) (rest : Option Fault)
  | object (members : List (String × Draft)) (rest : Option Fault)
  deriving Repr, Inhabited, BEq

/-! ### Strings and numbers -/

def fourHex (text : List Char) : Except Fault (Nat × List Char) :=
  match text with
  | a :: b :: c :: d :: rest =>
    match Unicode.hexDigit? a, Unicode.hexDigit? b, Unicode.hexDigit? c, Unicode.hexDigit? d with
    | some a, some b, some c, some d => .ok (((a * 16 + b) * 16 + c) * 16 + d, rest)
    | _, _, _, _ => .error .invalidEscape
  | _ =>
    -- Fewer than four characters may still be four bytes, which are then no digits.
    if (String.ofList text).utf8ByteSize < 4 then .error .endInString else .error .invalidEscape

/-- The character after `\u`. Characters beyond the first plane take two escapes. -/
def unicodeEscape (text : List Char) : Except Fault (Char × List Char) := do
  let (n, rest) ← fourHex text
  if 0xDC00 ≤ n ∧ n ≤ 0xDFFF then .error .loneSurrogate
  else if n < 0xD800 ∨ 0xDBFF < n then .ok (Char.ofNat n, rest)
  else match rest with
    | [] => .error .endInString
    | ['\\'] => .error .endInString
    | '\\' :: 'u' :: rest =>
      let (low, rest) ← fourHex rest
      if low < 0xDC00 ∨ 0xDFFF < low then .error .loneSurrogate
      else .ok (Char.ofNat (0x10000 + (n - 0xD800) * 0x400 + (low - 0xDC00)), rest)
    | _ => .error .hexEscapeEnds

def escape (text : List Char) : Except Fault (Char × List Char) :=
  match text with
  | [] => .error .endInString
  | '"' :: rest => .ok ('"', rest)
  | '\\' :: rest => .ok ('\\', rest)
  | '/' :: rest => .ok ('/', rest)
  | 'b' :: rest => .ok ('\x08', rest)
  | 'f' :: rest => .ok ('\x0c', rest)
  | 'n' :: rest => .ok ('\n', rest)
  | 'r' :: rest => .ok ('\r', rest)
  | 't' :: rest => .ok ('\t', rest)
  | 'u' :: rest => unicodeEscape rest
  | _ => .error .invalidEscape

theorem fourHex_length {text rest : List Char} {n : Nat} (h : fourHex text = .ok (n, rest)) :
    rest.length < text.length := by
  unfold fourHex at h
  split at h
  · split at h
    · simp only [Except.ok.injEq, Prod.mk.injEq] at h
      obtain ⟨_, rfl⟩ := h
      simp only [List.length_cons]
      omega
    · simp at h
  · split at h <;> simp at h

theorem unicodeEscape_length {text rest : List Char} {c : Char}
    (h : unicodeEscape text = .ok (c, rest)) : rest.length < text.length := by
  unfold unicodeEscape at h
  cases first : fourHex text with
  | error f => simp [first, bind, Except.bind] at h
  | ok found =>
    obtain ⟨n, more⟩ := found
    have shorter := fourHex_length first
    simp only [first, bind, Except.bind] at h
    split at h
    · simp at h
    · split at h
      · simp only [Except.ok.injEq, Prod.mk.injEq] at h
        exact h.2 ▸ shorter
      · split at h
        · simp at h
        · simp at h
        · rename_i after
          cases second : fourHex after with
          | error f => simp [second] at h
          | ok found =>
            obtain ⟨low, last⟩ := found
            have shorter' := fourHex_length second
            simp only [second] at h
            split at h
            · simp at h
            · simp only [Except.ok.injEq, Prod.mk.injEq] at h
              obtain ⟨_, rfl⟩ := h
              simp only [List.length_cons] at shorter
              omega
        · simp at h

theorem escape_length {text rest : List Char} {c : Char} (h : escape text = .ok (c, rest)) :
    rest.length < text.length := by
  unfold escape at h
  split at h
  all_goals first
    | (simp only [Except.ok.injEq, Prod.mk.injEq] at h
       obtain ⟨_, rfl⟩ := h
       simp only [List.length_cons]
       omega)
    | (have shorter := unicodeEscape_length h
       simp only [List.length_cons]
       omega)
    | simp at h

/-- The rest of a string, after its opening quote. `read` holds the characters so far, latest
first. -/
def stringBody (read : List Char) (text : List Char) : Except Fault (String × List Char) :=
  match text with
  | [] => .error .endInString
  | '"' :: rest => .ok (String.ofList read.reverse, rest)
  | '\\' :: rest =>
    match _h : escape rest with
    | .ok (c, more) => stringBody (c :: read) more
    | .error f => .error f
  | c :: rest => if c.toNat < 32 then .error .controlCharacter else stringBody (c :: read) rest
termination_by text.length
decreasing_by
  · have := escape_length _h
    simp only [List.length_cons]
    omega
  · simp only [List.length_cons]
    omega

theorem stringBody_length {read text rest : List Char} {s : String}
    (h : stringBody read text = .ok (s, rest)) : rest.length ≤ text.length := by
  fun_induction stringBody read text with
  | case1 => simp at h
  | case2 => simp_all
  | case3 read text c more found ih =>
    have := escape_length found
    have := ih h
    simp only [List.length_cons]
    omega
  | case4 => simp at h
  | case5 => simp at h
  | case6 read c text _ _ _ ih =>
    have := ih h
    simp only [List.length_cons]
    omega

def digits (text : List Char) : List Char := text.takeWhile Char.isDigit

def digitsValue (found : List Char) : Nat := found.foldl (fun n c => n * 10 + (c.toNat - 48)) 0

/-- Digits are taken into a significand while it fits 64 bits. Returns it with the number of
digits left out. -/
def significand (n : Nat) : List Char → Nat × Nat
  | [] => (n, 0)
  | c :: rest =>
    let next := n * 10 + (c.toNat - 48)
    if next < 0x10000000000000000 then significand next rest else (n, rest.length + 1)

structure Numeral where
  negative : Bool
  whole : List Char
  places : Option (List Char)
  exponent : Option (Bool × List Char)
  deriving DecidableEq, Repr

def someDigits (text : List Char) : Except Fault (List Char × List Char) :=
  let found := digits text
  if found.isEmpty then .error (if text.isEmpty then .endInValue else .invalidNumber)
  else .ok (found, text.drop found.length)

def placesPart (text : List Char) : Except Fault (Option (List Char) × List Char) :=
  match text with
  | '.' :: rest => (someDigits rest).map (fun found => (some found.1, found.2))
  | _ => .ok (none, text)

def signedPart (text : List Char) : Except Fault (Option (Bool × List Char) × List Char) :=
  match text with
  | '+' :: rest => (someDigits rest).map (fun found => (some (false, found.1), found.2))
  | '-' :: rest => (someDigits rest).map (fun found => (some (true, found.1), found.2))
  | _ => (someDigits text).map (fun found => (some (false, found.1), found.2))

def exponentPart (text : List Char) : Except Fault (Option (Bool × List Char) × List Char) :=
  match text with
  | 'e' :: rest => signedPart rest
  | 'E' :: rest => signedPart rest
  | _ => .ok (none, text)

def numeral (negative : Bool) (text : List Char) : Except Fault (Numeral × List Char) := do
  let (whole, rest) ← someDigits text
  if whole.head? = some '0' ∧ whole.length > 1 then .error .invalidNumber
  else
    let (places, rest) ← placesPart rest
    let (exponent, rest) ← exponentPart rest
    .ok (⟨negative, whole, places, exponent⟩, rest)

def double (negative : Bool) (significand : Nat) (exponent : Int) : Except Fault Number :=
  match scaleByTen significand.toUInt64.toFloat exponent 16 with
  | some f => .ok (.double (if negative then -f else f).toBits)
  | none => .error .numberOutOfRange

def exponentLimit : Nat := 2147483647

/-- The value of a number. Digits beyond 64 bits count as zeros before the point and not at all
after it. -/
def Numeral.value (numeral : Numeral) : Except Fault Number :=
  let (n, dropped) := significand 0 numeral.whole
  match numeral.places, numeral.exponent with
  | none, none =>
    if dropped > 0 then double numeral.negative n dropped
    else if !numeral.negative then .ok (.integer n)
    else if n = 0 ∨ n > 0x8000000000000000 then double true n 0
    else .ok (.integer (-(n : Int)))
  | places, exponent =>
    let (n, scale) : Nat × Int :=
      match places with
      | none => (n, (dropped : Int))
      | some places =>
        if dropped > 0 then (n, (dropped : Int))
        else
          let (m, left) := significand n places
          (m, -((places.length - left : Nat) : Int))
    match exponent with
    | none => double numeral.negative n scale
    | some (minus, size) =>
      let size := digitsValue size
      if size > exponentLimit then
        if n ≠ 0 ∧ !minus then .error .numberOutOfRange
        else .ok (.double (if numeral.negative then -0.0 else 0.0 : Float).toBits)
      else double numeral.negative n (if minus then scale - (size : Int) else scale + (size : Int))

theorem someDigits_length {text found rest : List Char}
    (h : someDigits text = .ok (found, rest)) : rest.length < text.length := by
  by_cases e : digits text = []
  · simp [someDigits, e] at h
  · simp only [someDigits, List.isEmpty_iff, e, if_false, Except.ok.injEq, Prod.mk.injEq] at h
    obtain ⟨_, rfl⟩ := h
    have some := List.length_pos_iff.mpr e
    have within : (digits text).length ≤ text.length := (List.takeWhile_sublist _).length_le
    simp only [List.length_drop]
    omega

private theorem map_someDigits_length {β : Type} {f : List Char → β} {text rest : List Char} {b : β}
    (h : (someDigits text).map (fun found => (f found.1, found.2)) = .ok (b, rest)) :
    rest.length ≤ text.length := by
  cases e : someDigits text with
  | error x => simp [e, Except.map] at h
  | ok found =>
    simp only [e, Except.map, Except.ok.injEq, Prod.mk.injEq] at h
    exact h.2 ▸ Nat.le_of_lt (@someDigits_length text found.1 found.2 e)

theorem placesPart_length {text rest : List Char} {found : Option (List Char)}
    (h : placesPart text = .ok (found, rest)) : rest.length ≤ text.length := by
  unfold placesPart at h
  split at h
  · have := map_someDigits_length (f := some) h
    simp only [List.length_cons]
    omega
  · simp only [Except.ok.injEq, Prod.mk.injEq] at h
    exact h.2 ▸ Nat.le_refl _

theorem signedPart_length {text rest : List Char} {found : Option (Bool × List Char)}
    (h : signedPart text = .ok (found, rest)) : rest.length ≤ text.length := by
  unfold signedPart at h
  split at h
  · have := map_someDigits_length (f := fun d => some (false, d)) h
    simp only [List.length_cons]
    omega
  · have := map_someDigits_length (f := fun d => some (true, d)) h
    simp only [List.length_cons]
    omega
  · exact map_someDigits_length (f := fun d => some (false, d)) h

theorem exponentPart_length {text rest : List Char} {found : Option (Bool × List Char)}
    (h : exponentPart text = .ok (found, rest)) : rest.length ≤ text.length := by
  unfold exponentPart at h
  split at h
  · have := signedPart_length h
    simp only [List.length_cons]
    omega
  · have := signedPart_length h
    simp only [List.length_cons]
    omega
  · simp only [Except.ok.injEq, Prod.mk.injEq] at h
    exact h.2 ▸ Nat.le_refl _

theorem numeral_length {negative : Bool} {text rest : List Char} {n : Numeral}
    (h : numeral negative text = .ok (n, rest)) : rest.length < text.length := by
  unfold numeral at h
  cases e₁ : someDigits text with
  | error f => simp [e₁, bind, Except.bind] at h
  | ok found =>
    obtain ⟨whole, r₁⟩ := found
    simp only [e₁, bind, Except.bind] at h
    split at h
    · simp at h
    · cases e₂ : placesPart r₁ with
      | error f => simp [e₂] at h
      | ok found =>
        obtain ⟨places, r₂⟩ := found
        simp only [e₂] at h
        cases e₃ : exponentPart r₂ with
        | error f => simp [e₃] at h
        | ok found =>
          obtain ⟨exponent, r₃⟩ := found
          simp only [e₃, Except.ok.injEq, Prod.mk.injEq] at h
          obtain ⟨_, rfl⟩ := h
          exact Nat.lt_of_le_of_lt
            (Nat.le_trans (exponentPart_length e₃) (placesPart_length e₂)) (someDigits_length e₁)

def ident (word : List Char) (value : Draft) (text : List Char) :
    Except Fault (Draft × List Char) :=
  if word.isPrefixOf text then .ok (value, text.drop word.length)
  else .error (if text.isPrefixOf word then .endInValue else .expectedIdent)

def numberFrom (c : Char) (rest : List Char) : Except Fault (Draft × List Char) := do
  let (n, rest) ← if c = '-' then numeral true rest else numeral false (c :: rest)
  .ok (.number (← n.value), rest)

def scalar (c : Char) (rest : List Char) : Except Fault (Draft × List Char) :=
  if c = 'n' then ident ['u', 'l', 'l'] .null rest
  else if c = 't' then ident ['r', 'u', 'e'] (.bool true) rest
  else if c = 'f' then ident ['a', 'l', 's', 'e'] (.bool false) rest
  else if c = '"' then (stringBody [] rest).map (fun found => (.string found.1, found.2))
  else if c = '-' ∨ c.isDigit then numberFrom c rest
  else .error .expectedValue

theorem ident_length {word text rest : List Char} {value d : Draft}
    (h : ident word value text = .ok (d, rest)) : rest.length ≤ text.length := by
  unfold ident at h
  split at h
  · simp only [Except.ok.injEq, Prod.mk.injEq] at h
    obtain ⟨_, rfl⟩ := h
    simp
  · simp at h

theorem numberFrom_length {c : Char} {text rest : List Char} {d : Draft}
    (h : numberFrom c text = .ok (d, rest)) : rest.length < (c :: text).length := by
  have spent : ∀ {negative : Bool} {from_ : List Char} {n : Numeral × List Char},
      numeral negative from_ = .ok n → from_.length ≤ (c :: text).length →
      (do .ok (Draft.number (← n.1.value), n.2) : Except Fault (Draft × List Char)) =
        .ok (d, rest) → rest.length < (c :: text).length := by
    intro negative from_ n found within result
    have := numeral_length (n := n.1) found
    cases v : n.1.value with
    | error f => simp [v, bind, Except.bind] at result
    | ok value =>
      simp only [v, bind, Except.bind, Except.ok.injEq, Prod.mk.injEq] at result
      rw [← result.2]
      omega
  unfold numberFrom at h
  by_cases sign : c = '-'
  · cases e : numeral true text with
    | error f => simp [sign, e, bind, Except.bind] at h
    | ok n =>
      simp only [sign, if_true, e, bind, Except.bind] at h
      exact spent e (by simp) h
  · cases e : numeral false (c :: text) with
    | error f => simp [sign, e, bind, Except.bind] at h
    | ok n =>
      simp only [sign, if_false, e, bind, Except.bind] at h
      exact spent e (Nat.le_refl _) h

theorem scalar_length {c : Char} {text rest : List Char} {d : Draft}
    (h : scalar c text = .ok (d, rest)) : rest.length < (c :: text).length := by
  have literal {word : List Char} {value : Draft} (h : ident word value text = .ok (d, rest)) :
      rest.length < (c :: text).length := Nat.lt_succ_of_le (ident_length h)
  unfold scalar at h
  split at h
  · exact literal h
  · split at h
    · exact literal h
    · split at h
      · exact literal h
      · split at h
        · cases e : stringBody [] text with
          | error f => simp [e, Except.map] at h
          | ok found =>
            simp only [e, Except.map, Except.ok.injEq, Prod.mk.injEq] at h
            have := @stringBody_length [] text found.2 found.1 e
            rw [h.2] at this
            exact Nat.lt_succ_of_le this
        · split at h
          · exact numberFrom_length h
          · simp at h

/-! ### Arrays and objects -/

def isBlank (c : Char) : Bool := c = ' ' || c = '\n' || c = '\t' || c = '\r'

/-- An array or object that is still open, with its items latest first. In an object the key of
the value that is being read comes with it. -/
inductive Frame where
  | list (items : List Draft)
  | members (done : List (String × Draft)) (key : String)
  deriving Repr, Inhabited

def unwind (last : Draft) : List Frame → Draft
  | [] => last
  | .list items :: outer => unwind (.array (last :: items).reverse none) outer
  | .members done key :: outer => unwind (.object ((key, last) :: done).reverse none) outer

inductive Want where
  | value
  | firstItem
  | item
  | firstKey
  | key
  | colon
  | after (value : Draft)
  deriving Repr, Inhabited

def atEnd (want : Want) (frames : List Frame) : Draft :=
  match want, frames with
  | .after value, [] => value
  | .after value, .list items :: outer =>
    unwind (.array (value :: items).reverse (some .endInList)) outer
  | .after value, .members done key :: outer =>
    unwind (.object ((key, value) :: done).reverse (some .endInObject)) outer
  | .firstItem, .list items :: outer => unwind (.array items.reverse (some .endInList)) outer
  | .firstKey, .members done _ :: outer =>
    unwind (.object done.reverse (some .endInObject)) outer
  | .key, .members done _ :: outer => unwind (.object done.reverse (some .endInValue)) outer
  | .colon, _ => unwind (.fault .endInObject) frames
  | _, _ => unwind (.fault .endInValue) frames

inductive Step where
  | stop (draft : Draft) (trailing : Option Fault)
  | go (want : Want) (frames : List Frame) (rest : List Char)

def startValue (c : Char) (rest : List Char) (frames : List Frame) : Step :=
  if c = '[' then
    if frames.length ≥ depthLimit then .stop (unwind (.fault .tooDeep) frames) none
    else .go .firstItem (.list [] :: frames) rest
  else if c = '\x7b' then
    if frames.length ≥ depthLimit then .stop (unwind (.fault .tooDeep) frames) none
    else .go .firstKey (.members [] "" :: frames) rest
  else match scalar c rest with
    | .ok (value, rest) => .go (.after value) frames rest
    | .error f => .stop (unwind (.fault f) frames) none

def startKey (c : Char) (rest : List Char) (done : List (String × Draft)) (outer : List Frame) :
    Step :=
  if c = '"' then
    match stringBody [] rest with
    | .ok (key, rest) => .go .colon (.members done key :: outer) rest
    | .error f => .stop (unwind (.object done.reverse (some f)) outer) none
  else .stop (unwind (.object done.reverse (some .keyNotString)) outer) none

/-- Spends a character that is no blank, and what belongs to it. -/
def step (want : Want) (frames : List Frame) (c : Char) (rest : List Char) : Step :=
  match want, frames with
  | .after value, [] => .stop value (some .trailingCharacters)
  | .after value, .list items :: outer =>
    if c = ']' then .go (.after (.array (value :: items).reverse none)) outer rest
    else if c = ',' then .go .item (.list (value :: items) :: outer) rest
    else .stop (unwind (.array (value :: items).reverse (some .expectedListCommaOrEnd)) outer) none
  | .after value, .members done key :: outer =>
    if c = '\x7d' then .go (.after (.object ((key, value) :: done).reverse none)) outer rest
    else if c = ',' then .go .key (.members ((key, value) :: done) "" :: outer) rest
    else .stop (unwind (.object ((key, value) :: done).reverse
      (some .expectedObjectCommaOrEnd)) outer) none
  | .colon, frames =>
    if c = ':' then .go .value frames rest
    else .stop (unwind (.fault .expectedColon) frames) none
  | .firstKey, .members done _ :: outer =>
    if c = '\x7d' then .go (.after (.object done.reverse none)) outer rest
    else startKey c rest done outer
  | .key, .members done _ :: outer =>
    if c = '\x7d' then .stop (unwind (.object done.reverse (some .trailingComma)) outer) none
    else startKey c rest done outer
  | .firstItem, .list items :: outer =>
    if c = ']' then .go (.after (.array items.reverse none)) outer rest
    else startValue c rest (.list items :: outer)
  | .item, .list items :: outer =>
    if c = ']' then .stop (unwind (.array items.reverse (some .trailingComma)) outer) none
    else startValue c rest (.list items :: outer)
  | _, frames => startValue c rest frames

theorem startValue_length {c : Char} {text rest : List Char} {frames frames' : List Frame}
    {want : Want} (h : startValue c text frames = .go want frames' rest) :
    rest.length < (c :: text).length := by
  unfold startValue at h
  split at h
  · split at h <;> simp at h
    simp [h.2.2]
  · split at h
    · split at h <;> simp at h
      simp [h.2.2]
    · split at h
      · rename_i found
        simp only [Step.go.injEq] at h
        exact h.2.2 ▸ scalar_length found
      · simp at h

theorem startKey_length {c : Char} {text rest : List Char} {done : List (String × Draft)}
    {outer frames : List Frame} {want : Want} (h : startKey c text done outer = .go want frames rest) :
    rest.length < (c :: text).length := by
  unfold startKey at h
  split at h
  · split at h
    · rename_i found
      simp only [Step.go.injEq] at h
      have := stringBody_length found
      rw [h.2.2] at this
      simp only [List.length_cons]
      omega
    · simp at h
  · simp at h

theorem step_length {want want' : Want} {frames frames' : List Frame} {c : Char}
    {text rest : List Char} (h : step want frames c text = .go want' frames' rest) :
    rest.length < (c :: text).length := by
  unfold step at h
  split at h
  all_goals
    repeat' split at h
    all_goals first
      | exact startValue_length h
      | exact startKey_length h
      | (simp only [Step.go.injEq] at h; simp [h.2.2])
      | simp at h

/-- Reads on with the given open frames. Returns the draft of the whole text and the fault of
what stands after its value. -/
def run (want : Want) (frames : List Frame) (text : List Char) : Draft × Option Fault :=
  match text with
  | [] => (atEnd want frames, none)
  | c :: rest =>
    if isBlank c then run want frames rest
    else match _h : step want frames c rest with
      | .stop draft trailing => (draft, trailing)
      | .go want frames rest => run want frames rest
termination_by text.length
decreasing_by
  · simp only [List.length_cons]
    omega
  · exact step_length _h

def Draft.read (text : String) : Draft × Option Fault := run .value [] text.toList

/-! ### Drafts and values -/

namespace Draft

mutual

def fault? : Draft → Option Fault
  | .fault f => some f
  | null | bool _ | number _ | string _ => none
  | array items rest => (itemsFault? items).or rest
  | object members rest => (membersFault? members).or rest

def itemsFault? : List Draft → Option Fault
  | [] => none
  | item :: rest => item.fault?.or (itemsFault? rest)

def membersFault? : List (String × Draft) → Option Fault
  | [] => none
  | (_, value) :: rest => value.fault?.or (membersFault? rest)

end

mutual

/-- A value as a draft without faults. Members come in key order. -/
def ofJson : Json → Draft
  | .null => null
  | .bool b => bool b
  | .number n => number n
  | .string s => string s
  | .array items => array (ofItems items) none
  | .object members => object (Entries.sort (ofMembers members)) none

def ofItems : List Json → List Draft
  | [] => []
  | item :: rest => ofJson item :: ofItems rest

def ofMembers : List (String × Json) → List (String × Draft)
  | [] => []
  | (key, value) :: rest => (key, ofJson value) :: ofMembers rest

end

mutual

def toJson : Draft → Json
  | .fault _ | null => .null
  | bool b => .bool b
  | number n => .number n
  | string s => .string s
  | array items _ => .array (toItems items)
  | object members _ => .object (Entries.sort (toMembers members))

def toItems : List Draft → List Json
  | [] => []
  | item :: rest => toJson item :: toItems rest

def toMembers : List (String × Draft) → List (String × Json)
  | [] => []
  | (key, value) :: rest => (key, toJson value) :: toMembers rest

end

end Draft

def parse (text : String) : Except Fault Json :=
  let (draft, trailing) := Draft.read text
  match draft.fault?.or trailing with
  | some f => .error f
  | none => .ok draft.toJson

end StackLexer.Json
