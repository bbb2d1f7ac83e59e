import ImagePlacement.Decimal.Binary64

namespace ImagePlacement.Decimal

/-- Decimal digits of a positive number: `0.d₁d₂… * 10 ^ point`, the first and the last
digit not zero. -/
structure Digits where
  digits : List Nat
  point : Int
  deriving DecidableEq, Repr

/-- The decimal digits of a number, most significant first. -/
def digitsOf (n : Nat) : List Nat := (Nat.toDigits 10 n).map fun c => c.toNat - 48

/-- `n * 10 ^ e` as digits without trailing zeros. -/
def Digits.ofScaled (n : Nat) (e : Int) : Digits :=
  let all := digitsOf n
  ⟨(all.reverse.dropWhile (· == 0)).reverse, all.length + e⟩

/-- The numbers that round to `mantissa * 2 ^ exponent`, four times enlarged so that the
half-way points are integers: between `low` and `high`, the ends included when the
mantissa is even. -/
structure Interval where
  low : Nat
  mid : Nat
  high : Nat
  closed : Bool
  exponent : Int

/-- The interval of a positive binary64 number. Below a power of two the next number
is half as far away as above it. -/
def Interval.around (mantissa : Nat) (exponent : Int) : Interval :=
  let narrow := mantissa = Parts.leastNormal ∧ Parts.leastExponent < exponent
  { low := 4 * mantissa - (if narrow then 1 else 2)
    mid := 4 * mantissa
    high := 4 * mantissa + 2
    closed := mantissa % 2 == 0
    exponent := exponent - 2 }

/-- Whether `n * 10 ^ e` lies in the interval. -/
def Interval.contains (i : Interval) (n : Nat) (e : Int) : Bool :=
  let point := (Ratio.mk n 1).shiftTen e
  let low := Ratio.ofBinary i.low i.exponent
  let high := Ratio.ofBinary i.high i.exponent
  let fromLow := compare (low.num * point.den) (point.num * low.den)
  let toHigh := compare (point.num * high.den) (high.num * point.den)
  (fromLow == .lt || (fromLow == .eq && i.closed)) &&
    (toHigh == .lt || (toHigh == .eq && i.closed))

/-- The point of the grid `10 ^ e` nearest to the middle among its two neighbours there,
if one of them lies in the interval; a tie goes to the upper one. -/
def Interval.onGrid? (i : Interval) (e : Int) : Option Nat :=
  let mid := (Ratio.ofBinary i.mid i.exponent).shiftTen (-e)
  let below := mid.num / mid.den
  let (nearest, other) :=
    if 2 * (mid.num % mid.den) < mid.den then (below, below + 1) else (below + 1, below)
  if i.contains nearest e then some nearest
  else if i.contains other e then some other
  else none

/-- How many digits stand before the point; negative for leading zeros after it. -/
def Interval.magnitude (i : Interval) : Int :=
  let mid := (Ratio.ofBinary i.mid i.exponent).shiftTen 400
  (digitsOf (mid.num / mid.den)).length - 400

/-- The fewest digits that read back as the same binary64 number, and of those the
nearest to it. Seventeen digits always suffice. -/
def shortest (mantissa : Nat) (exponent : Int) : Digits :=
  let i := Interval.around mantissa exponent
  let k := i.magnitude
  let found := (List.range 17).findSome? fun (n : Nat) =>
    (i.onGrid? (k - (n + 1))).map fun d => Digits.ofScaled d (k - (n + 1))
  found.getD ⟨[], 0⟩

end ImagePlacement.Decimal
