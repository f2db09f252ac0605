import StackLexer.Regex.Fault
import StackLexer.Unicode.Ranges

/-! Characters written by number or by a letter after a backslash.
Every reader takes the text after the backslash and returns how many characters of it are
spent, so that the caller goes on at a point of its own text. -/

namespace StackLexer.Regex.Escape

open Unicode (hexDigit?)

def octalDigit? (c : Char) : Option Nat := if '0' ≤ c ∧ c ≤ '7' then some (c.toNat - 48) else none

def decimalDigit? (c : Char) : Option Nat := if '0' ≤ c ∧ c ≤ '9' then some (c.toNat - 48) else none

def digits (digit? : Char → Option Nat) : (limit : Nat) → List Char → List Nat
  | limit + 1, c :: rest =>
    match digit? c with
    | some d => d :: digits digit? limit rest
    | none => []
  | _, _ => []

def value (base : Nat) (digits : List Nat) : Nat := digits.foldl (fun n d => n * base + d) 0

private def braced? (digit? : Char → Option Nat) (base limit : Nat) :
    List Char → Option (Nat × Nat)
  | '\x7b' :: rest =>
    let found := digits digit? limit rest
    if found.isEmpty then none
    else match rest.drop found.length with
      | '\x7d' :: _ => some (value base found, found.length + 2)
      | _ => none
  | _ => none

def control? (c : Char) : Option Nat :=
  match c with
  | 'n' => some 10
  | 't' => some 9
  | 'r' => some 13
  | 'f' => some 12
  | 'v' => some 11
  | 'a' => some 7
  | 'b' => some 8
  | 'e' => some 27
  | _ => none

/-- Two hexadecimal digits or three octal ones give a byte of the text. From 128 on it is a part of a
character only. -/
private def byte (n spent : Nat) : Except Fault (Nat × Nat) :=
  if n < 128 then .ok (n, spent)
  else if n < 256 then .error (.unsupported "bytes of characters")
  else .error .numberTooBig

private def isSequence (digit? : Char → Option Nat) (limit : Nat) : List Char → Bool
  | '\x7b' :: rest =>
    let found := digits digit? limit rest
    !found.isEmpty && (rest.drop found.length).head?.any (fun c => c = ' ' || c = '\n')
  | _ => false

/-- The code point that a backslash and the following text stand for, with the number of
characters spent. A character without a meaning of its own stands for itself. -/
def codePoint (text : List Char) : Except Fault (Nat × Nat) :=
  match text with
  | [] => .error .endAtEscape
  | 'x' :: rest =>
    match rest with
    | '\x7b' :: _ =>
      if isSequence hexDigit? 8 rest then .error (.unsupported "sequences of code points")
      else match braced? hexDigit? 16 8 rest with
        | some (n, spent) => .ok (n, spent + 1)
        | none => .ok ('x'.toNat, 1)
    | _ =>
      let found := digits hexDigit? 2 rest
      byte (value 16 found) (found.length + 1)
  | 'u' :: rest =>
    let found := digits hexDigit? 4 rest
    if found.length = 4 then .ok (value 16 found, 5) else .error .badCodePoint
  | 'o' :: rest =>
    if isSequence octalDigit? 11 rest then .error (.unsupported "sequences of code points")
    else match braced? octalDigit? 8 11 rest with
      | some (n, spent) => .ok (n, spent + 1)
      | none => .ok ('o'.toNat, 1)
  | 'c' :: rest =>
    match rest with
    | [] => .error .endAtControl
    | '?' :: _ => .ok (127, 2)
    | '\\' :: _ => .error (.unsupported "escapes of control characters")
    | c :: _ => .ok (c.toNat % 32 + c.toNat / 128 % 2 * 128, 2)
  | 'C' :: _ | 'M' :: _ => .error (.unsupported "escapes of control characters")
  | c :: _ =>
    let octal := digits octalDigit? 3 text
    if octal.isEmpty then .ok ((control? c).getD c.toNat, 1)
    else byte (value 8 octal) octal.length

end StackLexer.Regex.Escape
