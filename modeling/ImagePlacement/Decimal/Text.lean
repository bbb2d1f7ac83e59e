import ImagePlacement.Decimal.Shortest

namespace ImagePlacement.Decimal

private def write (digits : List Nat) : String :=
  String.ofList (digits.map fun d => Char.ofNat (48 + d))

private def zeros (n : Nat) : List Nat := List.replicate n 0

/-- Digits written without an exponent: a zero stands before a leading point, and
nothing after the last digit of an integer. -/
def Digits.positional (d : Digits) : String :=
  let whole := d.point.toNat
  if d.point ≤ 0 then "0." ++ write (zeros (-d.point).toNat ++ d.digits)
  else if d.digits.length ≤ whole then
    write (d.digits ++ zeros (whole - d.digits.length))
  else write (d.digits.take whole) ++ "." ++ write (d.digits.drop whole)

/-- Digits written with one of them before the point, and an exponent. -/
def Digits.scientific (d : Digits) : String :=
  let fraction := write (d.digits.drop 1)
  write (d.digits.take 1) ++ (if fraction = "" then "" else "." ++ fraction) ++
    "e" ++ toString (d.point - 1)

private def signed (negative : Bool) (text : String) : String :=
  if negative then "-" ++ text else text

/-- A number in a message: the fewest digits that read back, never an exponent, no
point in an integer. -/
def plain (x : Float) : String :=
  match Parts.ofFloat x with
  | .nan => "NaN"
  | .infinite negative => signed negative "inf"
  | .finite negative 0 _ => signed negative "0"
  | .finite negative m e => signed negative (shortest m e).positional

/-- Digits of a number that is not always written positionally: an exponent is used from
`10 ^ 16` on, and where more than `zeros` zeros would stand between point and digits.
Integers keep `.0`. -/
def Digits.compact (d : Digits) (zeros : Nat) : String :=
  if d.point < -(zeros : Int) ∨ 16 < d.point then d.scientific
  else if (d.digits.length : Int) ≤ d.point then d.positional ++ ".0"
  else d.positional

/-- A number shown as a term. -/
def asTerm (x : Float) : String :=
  match Parts.ofFloat x with
  | .nan => "NaN"
  | .infinite negative => signed negative "inf"
  | .finite negative 0 _ => signed negative "0.0"
  | .finite negative m e => signed negative ((shortest m e).compact 3)

/-- A number in a JSON document, which has no word for those that are not finite. -/
def asJson (x : Float) : String :=
  match Parts.ofFloat x with
  | .nan | .infinite _ => "null"
  | .finite negative 0 _ => signed negative "0.0"
  | .finite negative m e => signed negative ((shortest m e).compact 4)

/-- A number with two places after the point, rounded exactly; a half goes to the
even neighbour. -/
def twoPlaces (x : Float) : String :=
  match Parts.ofFloat x with
  | .nan => "NaN"
  | .infinite negative => signed negative "inf"
  | .finite negative m e =>
    let hundredths := ((Ratio.ofBinary m e).shiftTen 2).roundToEven
    let places := zeros (2 - (digitsOf (hundredths % 100)).length) ++ digitsOf (hundredths % 100)
    signed negative (toString (hundredths / 100) ++ "." ++ write places)

end ImagePlacement.Decimal
