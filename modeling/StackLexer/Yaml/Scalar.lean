/-! Scalars and what they stand for.
A scalar without quotes may stand for null, a truth value or a number; one in quotes is a text. A
tag can say otherwise. -/

namespace StackLexer.Yaml

inductive Style where
  | plain
  | quoted
  | literal
  | folded
  deriving DecidableEq, Repr, Inhabited

structure Scalar where
  text : String := ""
  style : Style := .plain
  tag : Option String := none
  deriving DecidableEq, Repr, Inhabited

namespace Tag

def core (name : String) : String := "tag:yaml.org,2002:" ++ name

def isLocal (tag : Option String) : Bool :=
  match tag with
  | some name => name.toList.head? = some '!'
  | none => false

end Tag

inductive Meaning where
  | null
  | bool (value : Bool)
  | integer (value : Int)
  | float
  | string (text : String)
  deriving DecidableEq, Repr, Inhabited

namespace Meaning

def isNull (text : String) : Bool := ["null", "Null", "NULL", "~"].contains text

def bool? (text : String) : Option Bool :=
  if ["true", "True", "TRUE"].contains text then some true
  else if ["false", "False", "FALSE"].contains text then some false
  else none

def digit? (base : Nat) (c : Char) : Option Nat :=
  let value? := if '0' ≤ c ∧ c ≤ '9' then some (c.toNat - 48)
    else if 'a' ≤ c ∧ c ≤ 'f' then some (c.toNat - 87)
    else if 'A' ≤ c ∧ c ≤ 'F' then some (c.toNat - 55)
    else none
  value?.filter (· < base)

def digits? (base : Nat) (text : List Char) : Option Nat :=
  if text.isEmpty then none
  else text.foldlM (fun n c => (digit? base c).map (fun d => n * base + d)) 0

def prefixed? : List Char → Option Nat
  | '0' :: 'x' :: rest => digits? 16 rest
  | '0' :: 'o' :: rest => digits? 8 rest
  | '0' :: 'b' :: rest => digits? 2 rest
  | _ => none

def dropSign : List Char → List Char
  | '-' :: rest => rest
  | '+' :: rest => rest
  | text => text

def hasLeadingZero (text : List Char) : Bool :=
  match dropSign text with
  | '0' :: rest => !rest.isEmpty && rest.all Char.isDigit
  | _ => false

def integer? (text : List Char) : Option Int :=
  let limit := 0x100000000000000000000000000000000
  let least := 0x80000000000000000000000000000000
  let decimal? (digits : List Char) : Option Nat :=
    if hasLeadingZero text then none else digits? 10 digits
  match text with
  | '-' :: rest =>
    (((prefixed? rest).filter (· ≤ least)).or ((decimal? rest).filter (· ≤ least))).map
      (fun n => -(n : Int))
  | '+' :: rest =>
    (((prefixed? rest).filter (· < limit)).or ((decimal? rest).filter (· < limit))).map Int.ofNat
  | rest =>
    (((prefixed? rest).filter (· < limit)).or ((decimal? rest).filter (· < limit))).map Int.ofNat

def exponent? : List Char → Option Int
  | [] => some 0
  | e :: rest =>
    if e = 'e' || e = 'E' then
      (digits? 10 (dropSign rest)).map (fun n => if rest.head? = some '-' then -(n : Int) else n)
    else none

/-- The least number that is nearer to the double after the greatest one. -/
def tooLarge : Nat := Nat.pow 2 1024 - Nat.pow 2 970

def isInRange (n : Nat) (exponent : Int) : Bool :=
  let size : Int := (toString n).length + exponent
  n = 0 || size ≤ 308 || (size ≤ 310 &&
    (if exponent ≥ 0 then n * Nat.pow 10 exponent.toNat < tooLarge
      else n < tooLarge * Nat.pow 10 (-exponent).toNat))

def isDecimal (text : List Char) : Bool :=
  let body := match text with
    | '-' :: rest => rest
    | body => body
  let whole := body.takeWhile Char.isDigit
  let after := body.dropWhile Char.isDigit
  let (places, rest) := match after with
    | '.' :: more => (more.takeWhile Char.isDigit, more.dropWhile Char.isDigit)
    | _ => ([], after)
  match digits? 10 (whole ++ places), exponent? rest with
  | some n, some e => isInRange n (e - places.length)
  | _, _ => false

def isFloat (text : List Char) : Bool :=
  let names (l : List String) (t : List Char) : Bool := l.contains (String.ofList t)
  let unsigned := match text with
    | '+' :: rest => rest
    | _ => text
  if text.head? = some '+' && (unsigned.head? = some '+' || unsigned.head? = some '-') then false
  else names [".inf", ".Inf", ".INF"] unsigned || names ["-.inf", "-.Inf", "-.INF"] text ||
    names [".nan", ".NaN", ".NAN"] text || isDecimal unsigned

def ofPlain (text : String) : Meaning :=
  if text.isEmpty || isNull text then .null
  else match bool? text with
    | some b => .bool b
    | none =>
      match integer? text.toList with
      | some n => .integer n
      | none =>
        if !hasLeadingZero text.toList && isFloat text.toList then .float else .string text

end Meaning

/-- What a scalar stands for, `none` if it is not what its tag says or has a private tag. -/
def Scalar.meaning? (s : Scalar) : Option Meaning :=
  match s.tag with
  | none => some (if s.style = .plain then .ofPlain s.text else .string s.text)
  | some tag =>
    if Tag.isLocal (some tag) then none
    else if tag = Tag.core "bool" then (Meaning.bool? s.text).map .bool
    else if tag = Tag.core "int" then (Meaning.integer? s.text.toList).map .integer
    else if tag = Tag.core "float" then
      if Meaning.isFloat s.text.toList then some .float else none
    else if tag = Tag.core "null" then if Meaning.isNull s.text then some .null else none
    else some (.string s.text)

/-- Whether a scalar leaves its place empty. `none` if a tag says so and it does not. -/
def Scalar.isAbsent? (s : Scalar) : Option Bool :=
  if s.style ≠ .plain then some false
  else match s.tag with
    | none => some (s.text.isEmpty || Meaning.isNull s.text)
    | some tag =>
      if tag = Tag.core "null" then if Meaning.isNull s.text then some true else none
      else some false

def Scalar.bool? (s : Scalar) : Option Bool :=
  if s.style = .plain || (s.style = .literal && s.tag = some (Tag.core "bool")) then
    Meaning.bool? s.text
  else none

end StackLexer.Yaml
