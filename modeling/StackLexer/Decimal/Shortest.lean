/-! The shortest decimal that reads back as a given binary fraction.
A double is `m · 2^q`. Every real between the midpoints to its two neighbours reads back as it,
the midpoints too when `m` is even. Of the decimals with one digit, then two and so on, the first
that lies in that interval is taken, the nearest one when there are two. All arithmetic is exact. -/

namespace StackLexer.Decimal

structure Digits where
  digits : Nat
  exponent : Int
  deriving DecidableEq, Repr, Inhabited

inductive Magnitude where
  | nan
  | infinite
  | zero
  /-- `mantissa · 2^exponent`. The flag says that the neighbour below is only half as far away
  as the one above. -/
  | finite (mantissa : Nat) (exponent : Int) (narrowBelow : Bool)
  deriving DecidableEq, Repr, Inhabited

def isNegative (bits : UInt64) : Bool := bits.toNat / 0x8000000000000000 = 1

def magnitude (bits : UInt64) : Magnitude :=
  let unit : Nat := 0x10000000000000
  let fraction : Nat := bits.toNat % unit
  let biased : Nat := bits.toNat / unit % 0x800
  if biased = 2047 then (if fraction = 0 then .infinite else .nan)
  else if biased = 0 then (if fraction = 0 then .zero else .finite fraction (-1074) false)
  else .finite (unit + fraction) ((biased : Int) - 1075) (fraction = 0 ∧ biased > 1)

private def scaled (n base : Nat) (e : Int) : Nat × Nat :=
  if e ≥ 0 then (n * Nat.pow base e.toNat, 1) else (n, Nat.pow base (-e).toNat)

def digitCount (n : Nat) : Nat := if n < 10 then 1 else digitCount (n / 10) + 1

/-- The interval that reads back as a number, all with one denominator: lower end, number, upper
end, denominator, and whether the ends belong to it. -/
private structure Interval where
  low : Nat
  middle : Nat
  high : Nat
  denominator : Nat
  closed : Bool

private def interval (mantissa : Nat) (exponent : Int) (narrowBelow : Bool) : Interval :=
  -- In quarters of a unit in the last place, so that all three ends are whole.
  let (num, den) := scaled 1 2 (exponent - 2)
  { low := (4 * mantissa - (if narrowBelow then 1 else 2)) * num
    middle := 4 * mantissa * num
    high := (4 * mantissa + 2) * num
    denominator := den
    closed := mantissa % 2 = 0 }

private def Interval.holds (v : Interval) (n d : Nat) : Bool :=
  let value := n * v.denominator
  if v.closed then v.low * d ≤ value && value ≤ v.high * d
  else v.low * d < value && value < v.high * d

/-- The decimal on the grid of multiples of `10^e` that is nearest to the number, if it or its
neighbour on the other side of the number reads back. -/
private def Interval.onGrid? (v : Interval) (e : Int) : Option Digits :=
  let (num, den) := scaled 1 10 e
  -- The grid point below the number is `below · num / den`.
  let below := v.middle * den / (v.denominator * num)
  let remainder := v.middle * den % (v.denominator * num)
  let belowHolds := below > 0 && v.holds (below * num) den
  let aboveHolds := v.holds ((below + 1) * num) den
  let preferBelow := remainder * 2 < v.denominator * num ||
    (remainder * 2 = v.denominator * num && below % 2 = 0)
  if belowHolds && (preferBelow || !aboveHolds) then some ⟨below, e⟩
  else if aboveHolds then some ⟨below + 1, e⟩
  else none

private def Interval.search (v : Interval) (e : Int) : (tries : Nat) → Option Digits
  | 0 => none
  | tries + 1 => (v.onGrid? e).or (v.search (e - 1) tries)

def shortest (mantissa : Nat) (exponent : Int) (narrowBelow : Bool) : Digits :=
  let v := interval mantissa exponent narrowBelow
  -- The number is below `10^(top + 1)`.
  let top : Int := if v.middle ≥ v.denominator then digitCount (v.middle / v.denominator)
    else 1 - (digitCount (v.denominator / v.middle) : Int) + 1
  (v.search (top + 1) 25).getD ⟨0, 0⟩

def Digits.strip (d : Digits) : Digits :=
  if h : d.digits ≠ 0 ∧ d.digits % 10 = 0 then strip ⟨d.digits / 10, d.exponent + 1⟩ else d
termination_by d.digits
decreasing_by omega

def text (n : Nat) : List Char := (toString n).toList

def Digits.positional (d : Digits) : List Char :=
  let digits := text d.digits
  if d.exponent ≥ 0 then digits ++ List.replicate d.exponent.toNat '0'
  else
    let places := (-d.exponent).toNat
    if digits.length > places then
      digits.take (digits.length - places) ++ '.' :: digits.drop (digits.length - places)
    else '0' :: '.' :: List.replicate (places - digits.length) '0' ++ digits

def Digits.magnitude (d : Digits) : Int := d.exponent + (digitCount d.digits : Int) - 1

end StackLexer.Decimal
