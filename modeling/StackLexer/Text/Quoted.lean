import StackLexer.Unicode.Property

/-! Quoting a text so that every character can be seen.
Quotes and backslashes are escaped, common control characters have a letter, and characters that
print as nothing, as blank or only together with others are written by number. -/

namespace StackLexer.Text

open Unicode (Category)

def hexDigitOf (n : Nat) : Char := if n < 10 then Char.ofNat (48 + n) else Char.ofNat (87 + n)

def hex (n : Nat) : List Char :=
  if n < 16 then [hexDigitOf n] else hex (n / 16) ++ [hexDigitOf (n % 16)]
termination_by n

/-- Whether a character shows where it stands, apart from a blank. -/
def isPrintable (c : Char) : Bool :=
  match Category.of c with
  | .control | .format | .surrogate | .privateUse | .unassigned | .lineSeparator
  | .paragraphSeparator => false
  | .spaceSeparator => c = ' '
  | _ => true

def quotedChar (c : Char) : List Char :=
  match c with
  | '\x00' => ['\\', '0']
  | '\t' => ['\\', 't']
  | '\r' => ['\\', 'r']
  | '\n' => ['\\', 'n']
  | '"' => ['\\', '"']
  | '\\' => ['\\', '\\']
  | _ =>
    if Unicode.isGraphemeExtend c || !isPrintable c then
      ['\\', 'u', '\x7b'] ++ hex c.toNat ++ ['\x7d']
    else [c]

def quoted (s : String) : String :=
  String.ofList ('"' :: s.toList.flatMap quotedChar ++ ['"'])

def padRight (s : String) (width : Nat) : String :=
  s ++ String.ofList (List.replicate (width - s.length) ' ')

end StackLexer.Text
