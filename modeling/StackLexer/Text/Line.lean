/-! A line prepared for scanning.
The scanner counts characters, the tokens it gives out count bytes. `Line` holds the characters
together with the byte offset of each, so that either count can be had from the other. -/

namespace StackLexer

/-- A range of byte offsets, the second one exclusive. -/
structure Span where
  start : Nat
  stop : Nat
  deriving DecidableEq, Repr, Inhabited

namespace Text

def byteLength : List Char → Nat
  | [] => 0
  | c :: rest => c.utf8Size + byteLength rest

@[simp] theorem byteLength_nil : byteLength [] = 0 := rfl

@[simp] theorem byteLength_cons (c : Char) (rest : List Char) :
    byteLength (c :: rest) = c.utf8Size + byteLength rest := rfl

@[simp] theorem byteLength_append (a b : List Char) :
    byteLength (a ++ b) = byteLength a + byteLength b := by
  induction a with
  | nil => simp
  | cons c rest ih => simp [ih, Nat.add_assoc]

/-- The offsets before each character and after the last one, the first of them being
`offset`. -/
def boundaries (offset : Nat) : List Char → List Nat
  | [] => [offset]
  | c :: rest => offset :: boundaries (offset + c.utf8Size) rest

@[simp] theorem length_boundaries (offset : Nat) (cs : List Char) :
    (boundaries offset cs).length = cs.length + 1 := by
  induction cs generalizing offset with
  | nil => rfl
  | cons c rest ih => simp [boundaries, ih]

theorem getElem?_boundaries (offset : Nat) (cs : List Char) (i : Nat) (h : i ≤ cs.length) :
    (boundaries offset cs)[i]? = some (offset + byteLength (cs.take i)) := by
  induction cs generalizing offset i with
  | nil =>
    have : i = 0 := by simpa using h
    subst this
    simp [boundaries]
  | cons c rest ih =>
    cases i with
    | zero => simp [boundaries]
    | succ i =>
      simp only [boundaries, List.getElem?_cons_succ, List.take_succ_cons, byteLength_cons]
      rw [ih _ _ (by simpa using h)]
      simp [Nat.add_assoc]

end Text

structure Line where
  chars : Array Char
  offsets : Array Nat
  offsets_eq : offsets = (Text.boundaries 0 chars.toList).toArray

namespace Line

def ofString (s : String) : Line := ⟨s.toList.toArray, _, rfl⟩

def size (l : Line) : Nat := l.chars.size

/-- The number of bytes before a position. Positions after the end are taken for the end. -/
def offset (l : Line) (i : Nat) : Nat := l.offsets[min i l.size]?.getD 0

def text (l : Line) (i j : Nat) : String := String.ofList (l.chars.extract i j).toList

def span (l : Line) (i j : Nat) : Span := ⟨l.offset i, l.offset j⟩

def position? (l : Line) (offset : Nat) : Option Nat := l.offsets.findIdx? (· == offset)

theorem offset_eq (l : Line) (i : Nat) :
    l.offset i = Text.byteLength (l.chars.toList.take i) := by
  have h : min i l.size ≤ l.chars.toList.length := by
    rw [Array.length_toList]
    exact Nat.min_le_right _ _
  have e : l.chars.toList.take (min i l.size) = l.chars.toList.take i := by
    simp only [List.take_eq_take_iff, size, Array.length_toList]
    omega
  simp only [offset, l.offsets_eq, List.getElem?_toArray, Text.getElem?_boundaries 0 _ _ h, e]
  simp

end Line

end StackLexer
