/-! Reading bytes as UTF-8.
A character takes one to four bytes, the first of which fixes the bounds of the ones after it. Where
bytes stop fitting, what has been read of the character is one fault and reading goes on at the
first byte that does not fit. -/

namespace StackLexer.Text.Utf8

def tail : UInt8 × UInt8 := (0x80, 0xbf)

def lead? (b : UInt8) : Option (Nat × List (UInt8 × UInt8)) :=
  if b < 0x80 then some (b.toNat, [])
  else if b < 0xc2 then none
  else if b < 0xe0 then some (b.toNat - 0xc0, [tail])
  else if b = 0xe0 then some (0, [(0xa0, 0xbf), tail])
  else if b = 0xed then some (13, [(0x80, 0x9f), tail])
  else if b < 0xf0 then some (b.toNat - 0xe0, [tail, tail])
  else if b = 0xf0 then some (0, [(0x90, 0xbf), tail, tail])
  else if b < 0xf4 then some (b.toNat - 0xf0, [tail, tail, tail])
  else if b = 0xf4 then some (4, [(0x80, 0x8f), tail, tail])
  else none

/-- Goes on with a character of which `n` has been read. Returns it, if all its bytes fit, and the
bytes from the first that is not part of it. -/
def finish (n : Nat) : List (UInt8 × UInt8) → List UInt8 → Option Char × List UInt8
  | [], bytes => (some (Char.ofNat n), bytes)
  | _ :: _, [] => (none, [])
  | (low, high) :: bounds, b :: bytes =>
    if low ≤ b && b ≤ high then finish (n * 64 + (b.toNat - 0x80)) bounds bytes
    else (none, b :: bytes)

theorem length_finish_le (n : Nat) (bounds : List (UInt8 × UInt8)) (bytes : List UInt8) :
    (finish n bounds bytes).2.length ≤ bytes.length := by
  fun_induction finish n bounds bytes with
  | case1 => simp
  | case2 => simp
  | case3 n low high bounds b bytes fits ih => simp only [List.length_cons]; omega
  | case4 => simp

/-- The characters of some bytes, with `none` for each fault. -/
def decode : List UInt8 → List (Option Char)
  | [] => []
  | b :: bytes =>
    match lead? b with
    | none => none :: decode bytes
    | some (n, bounds) =>
      (finish n bounds bytes).1 :: decode (finish n bounds bytes).2
termination_by bytes => bytes.length
decreasing_by
  · simp
  · have := length_finish_le n bounds bytes
    simp only [List.length_cons]
    omega

def toText? (bytes : List UInt8) : Option String := ((decode bytes).mapM id).map String.ofList

def toTextLossy (bytes : List UInt8) : String :=
  String.ofList ((decode bytes).map (fun c => c.getD '\ufffd'))

end StackLexer.Text.Utf8
