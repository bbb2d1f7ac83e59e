namespace ImagePlacement.Decimal

/-- A binary64 number taken apart; a finite one is `mantissa * 2 ^ exponent`. -/
inductive Parts where
  | nan
  | infinite (negative : Bool)
  | finite (negative : Bool) (mantissa : Nat) (exponent : Int)
  deriving DecidableEq, Repr

namespace Parts

/-- The least mantissa of a number with full precision. -/
def leastNormal : Nat := 1 <<< 52

/-- The exponent of the smallest numbers. -/
def leastExponent : Int := -1074

/-- The parts of a number, read off its bits. -/
def ofFloat (x : Float) : Parts :=
  let bits := x.toBits.toNat
  let negative := bits.testBit 63
  let field := bits / leastNormal % 2048
  let fraction := bits % leastNormal
  if field = 2047 then
    if fraction = 0 then infinite negative else nan
  else if field = 0 then finite negative fraction leastExponent
  else finite negative (leastNormal + fraction) (leastExponent + (field - 1))

end Parts

/-- A non-negative number as a quotient. -/
structure Ratio where
  num : Nat
  den : Nat
  deriving DecidableEq, Repr

/-- `m * 2 ^ e` as a quotient. -/
def Ratio.ofBinary (m : Nat) (e : Int) : Ratio :=
  ⟨m <<< e.toNat, 1 <<< (-e).toNat⟩

/-- A quotient times `10 ^ e`. -/
def Ratio.shiftTen (r : Ratio) (e : Int) : Ratio :=
  ⟨r.num * Nat.pow 10 e.toNat, r.den * Nat.pow 10 (-e).toNat⟩

/-- The quotient rounded to an integer; a half goes to the even neighbour. -/
def Ratio.roundToEven (r : Ratio) : Nat :=
  let low := r.num / r.den
  let twice := 2 * (r.num % r.den)
  if twice < r.den then low
  else if r.den < twice then low + 1
  else low + low % 2

end ImagePlacement.Decimal
