import StackLexer.Decimal.Shortest

/-! Numbers of a JSON text.
A number without point and exponent that fits 64 bits is an integer; every other one is a double,
kept as its bits. -/

namespace StackLexer.Json

inductive Number where
  | integer (value : Int)
  | double (bits : UInt64)
  deriving DecidableEq, Repr, Inhabited

namespace Number

/-- A double is written with a point for exponents from -5 to 15 and else with an exponent of at
least two digits and a sign. -/
def doubleText (bits : UInt64) : String :=
  let sign := if Decimal.isNegative bits then "-" else ""
  sign ++ match Decimal.magnitude bits with
    | .nan => "NaN"
    | .infinite => "inf"
    | .zero => "0.0"
    | .finite mantissa exponent narrow =>
      let d := (Decimal.shortest mantissa exponent narrow).strip
      let e := d.magnitude
      if -5 ≤ e ∧ e ≤ 15 then
        String.ofList (d.positional ++ if d.exponent ≥ 0 then ['.', '0'] else [])
      else
        let digits := Decimal.text d.digits
        let point := if digits.length > 1 then '.' :: digits.drop 1 else []
        let size := Decimal.text e.natAbs
        String.ofList (digits.take 1 ++ point ++ ['e', if e < 0 then '-' else '+'] ++
          (if size.length < 2 then '0' :: size else size))

def text : Number → String
  | integer value => toString value
  | double bits => doubleText bits

end Number

/-- Scales a number by a power of ten in double arithmetic, at most 308 places at a time. `none`
when it grows out of range. -/
def scaleByTen (f : Float) (exponent : Int) (tries : Nat) : Option Float :=
  let power (n : Nat) : Float := Float.ofScientific 1 false n
  if exponent.natAbs ≤ 308 then
    let scaled := if exponent ≥ 0 then f * power exponent.natAbs else f / power exponent.natAbs
    if exponent ≥ 0 ∧ scaled.isInf then none else some scaled
  else if f == 0.0 then some f
  else if exponent ≥ 0 then none
  else match tries with
    | 0 => some 0.0
    | tries + 1 => scaleByTen (f / power 308) (exponent + 308) tries

end StackLexer.Json
