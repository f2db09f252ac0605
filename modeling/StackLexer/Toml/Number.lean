import StackLexer.Toml.Value

/-! Numbers, dates and times of a TOML document. -/

namespace StackLexer.Toml

/-- Digits with single underscores between them, without these, and what follows. -/
def digitRun (isDigit : Char → Bool) : List Char → Option (List Char × List Char)
  | [] => none
  | c :: '_' :: rest =>
    if isDigit c then (digitRun isDigit rest).map (fun (run, after) => (c :: run, after)) else none
  | c :: rest =>
    if !isDigit c then none
    else match digitRun isDigit rest with
      | some (run, after) => some (c :: run, after)
      | none => some ([c], rest)

def number (base : Nat) (digits : List Char) : Nat :=
  digits.foldl (fun n c =>
    n * base + (if c.isDigit then c.toNat - 48 else c.toLower.toNat - 87)) 0

def sign : List Char → Bool × List Char
  | '-' :: rest => (true, rest)
  | '+' :: rest => (false, rest)
  | rest => (false, rest)

def whole? (text : List Char) : Option (List Char × List Char) :=
  match text with
  | '0' :: rest => some (['0'], rest)
  | _ => digitRun Char.isDigit text

def exponent? : List Char → Option (Option Int × List Char)
  | c :: rest =>
    if c = 'e' || c = 'E' then
      let (negative, digits) := sign rest
      (digitRun Char.isDigit digits).map (fun (run, after) =>
        let n : Int := number 10 run
        (some (if negative then -n else n), after))
    else some (none, c :: rest)
  | [] => some (none, [])

/-- The double nearest to `n · 10^exponent`. Beyond the largest double there is none for positive
numbers. -/
def double? (negative : Bool) (n : Nat) (exponent : Int) : Option UInt64 :=
  let size : Int := (toString n).length + exponent
  let value : Float :=
    if n = 0 || size < -330 then 0.0
    else if size > 310 then 1.0 / 0.0
    else if exponent ≥ 0 then Float.ofScientific n false exponent.toNat
    else Float.ofScientific n true (-exponent).toNat
  if negative then some (-value).toBits else if value.isInf then none else some value.toBits

def decimal? (text : List Char) : Option (Value × List Char) := do
  let (negative, rest) := sign text
  let (digits, rest) ← whole? rest
  let (places, rest) ← match rest with
    | '.' :: rest => (digitRun Char.isDigit rest).map (fun (run, after) => (some run, after))
    | _ => some (none, rest)
  let (exponent, rest) ← exponent? rest
  if places.isNone && exponent.isNone then none
  else
    let places := places.getD []
    let bits ← double? negative (number 10 (digits ++ places)) (exponent.getD 0 - places.length)
    return (.float bits, rest)

def infinity : UInt64 := 0x7FF0000000000000

def notANumber : UInt64 := 0x7FF8000000000000

def special? (text : List Char) : Option (Value × List Char) :=
  let (negative, rest) := sign text
  let signed (bits : UInt64) : UInt64 := if negative then bits ||| 0x8000000000000000 else bits
  match rest with
  | 'i' :: 'n' :: 'f' :: rest => some (.float (signed infinity), rest)
  | 'n' :: 'a' :: 'n' :: rest => some (.float (signed notANumber), rest)
  | _ => none

def small? (n : Int) : Option Value :=
  if -0x8000000000000000 ≤ n ∧ n < 0x8000000000000000 then some (.integer n) else none

def isHexDigit (c : Char) : Bool :=
  c.isDigit || ('a' ≤ c && c ≤ 'f') || ('A' ≤ c && c ≤ 'F')

def integer? (text : List Char) : Option (Value × List Char) :=
  let based (base : Nat) (isDigit : Char → Bool) (rest : List Char) : Option (Value × List Char) :=
    (digitRun isDigit rest).bind (fun (run, after) => (small? (number base run)).map (·, after))
  match text with
  | '0' :: 'x' :: rest => based 16 isHexDigit rest
  | '0' :: 'o' :: rest => based 8 (fun c => '0' ≤ c && c ≤ '7') rest
  | '0' :: 'b' :: rest => based 2 (fun c => c = '0' || c = '1') rest
  | _ => do
    let (negative, rest) := sign text
    let (digits, rest) ← whole? rest
    let n : Int := number 10 digits
    return (← small? (if negative then -n else n), rest)

/-! ### Dates -/

def fixed? (count low high : Nat) (text : List Char) : Option (List Char × List Char) :=
  let digits := text.take count
  let n := number 10 digits
  if digits.length = count && digits.all Char.isDigit && low ≤ n && n ≤ high then
    some (digits, text.drop count)
  else none

def after? (c : Char) : List Char → Option (List Char)
  | d :: rest => if d = c then some rest else none
  | [] => none

def daysIn (year month : Nat) : Nat :=
  if month = 2 then
    if year % 4 = 0 && (year % 100 ≠ 0 || year % 400 = 0) then 29 else 28
  else if [4, 6, 9, 11].contains month then 30
  else 31

def day? (text : List Char) : Option (List Char × List Char) := do
  let (year, rest) ← fixed? 4 0 9999 text
  let (month, rest) ← fixed? 2 1 12 (← after? '-' rest)
  let (day, rest) ← fixed? 2 1 31 (← after? '-' rest)
  if number 10 day ≤ daysIn (number 10 year) (number 10 month) then
    some (year ++ '-' :: month ++ '-' :: day, rest)
  else none

def fraction? : List Char → Option (List Char × List Char)
  | '.' :: rest =>
    let digits := rest.takeWhile Char.isDigit
    if digits.isEmpty then none
    else
      let kept := ((digits.take 9).reverse.dropWhile (· == '0')).reverse
      some (if kept.isEmpty then [] else '.' :: kept, rest.dropWhile Char.isDigit)
  | _ => none

def time? (text : List Char) : Option (List Char × List Char) := do
  let (hour, rest) ← fixed? 2 0 23 text
  let (minute, rest) ← fixed? 2 0 59 (← after? ':' rest)
  let (second, rest) ← fixed? 2 0 60 (← after? ':' rest)
  let (fraction, rest) := (fraction? rest).getD ([], rest)
  return (hour ++ ':' :: minute ++ ':' :: second ++ fraction, rest)

def offset? : List Char → Option (List Char × List Char)
  | c :: rest =>
    if c = 'Z' || c = 'z' then some (['Z'], rest)
    else if c = '+' || c = '-' then do
      let (hour, rest) ← fixed? 2 0 23 rest
      let (minute, rest) ← fixed? 2 0 59 (← after? ':' rest)
      let zero := number 10 hour = 0 && number 10 minute = 0
      return ((if zero then '+' else c) :: hour ++ ':' :: minute, rest)
    else none
  | [] => none

def timeOfDay? : List Char → Option (List Char × List Char)
  | c :: rest =>
    if c = 'T' || c = 't' || c = ' ' then do
      let (time, rest) ← time? rest
      let (offset, rest) := (offset? rest).getD ([], rest)
      return ('T' :: time ++ offset, rest)
    else none
  | [] => none

def date? (text : List Char) : Option (Value × List Char) :=
  match day? text with
  | some (day, rest) =>
    let (time, rest) := (timeOfDay? rest).getD ([], rest)
    some (.date (String.ofList (day ++ time)), rest)
  | none => (time? text).map (fun (time, rest) => (.date (String.ofList time), rest))

def numeral? (text : List Char) : Option (Value × List Char) :=
  (date? text).or ((decimal? text).or ((special? text).or (integer? text)))

end StackLexer.Toml
