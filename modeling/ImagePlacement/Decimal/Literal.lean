namespace ImagePlacement.Decimal

/-- A decimal number as it is written: `± mantissa * 10 ^ exponent`. -/
structure Literal where
  negative : Bool
  mantissa : Nat
  exponent : Int
  deriving DecidableEq, Repr

/-- The value of a decimal digit. -/
def digit? (c : Char) : Option Nat :=
  if '0' ≤ c ∧ c ≤ '9' then some (c.toNat - 48) else none

/-- The digits that a text starts with, and the rest. -/
def takeDigits : List Char → List Nat × List Char
  | [] => ([], [])
  | c :: rest =>
    match digit? c with
    | some d => let (more, rest) := takeDigits rest; (d :: more, rest)
    | none => ([], c :: rest)

/-- The number that decimal digits write. -/
def ofDigits (digits : List Nat) : Nat := digits.foldl (fun n d => 10 * n + d) 0

/-- A sign, if there is one, and the rest. -/
def takeSign : List Char → Bool × List Char
  | '-' :: rest => (true, rest)
  | '+' :: rest => (false, rest)
  | text => (false, text)

/-- The nearest binary64 number. Beyond the range of the format it is infinite or zero;
the bounds keep the powers of ten small. -/
def Literal.toFloat (l : Literal) : Float :=
  let size : Int := (Nat.toDigits 10 l.mantissa).length + l.exponent
  let magnitude :=
    if l.mantissa = 0 ∨ size < -400 then 0.0
    else if 400 < size then 1.0 / 0.0
    else Float.ofScientific l.mantissa (l.exponent < 0) l.exponent.natAbs
  if l.negative then -magnitude else magnitude

/-- The exponent part that may end a number: nothing, or `e`, a sign and digits. -/
def exponent? : List Char → Option Int
  | [] => some 0
  | c :: rest =>
    if c = 'e' ∨ c = 'E' then
      let (negative, rest) := takeSign rest
      match takeDigits rest with
      | ([], _) => none
      | (digits, []) => some (if negative then -(ofDigits digits : Int) else ofDigits digits)
      | _ => none
    else none

/-- Digits, a point with digits, an exponent; a digit must stand before or after
the point. -/
def unsigned? (text : List Char) : Option (Nat × Int) :=
  let (whole, rest) := takeDigits text
  let (fraction, rest) := match rest with
    | '.' :: rest => takeDigits rest
    | _ => ([], rest)
  if whole.isEmpty && fraction.isEmpty then none
  else (exponent? rest).map fun e => (ofDigits (whole ++ fraction), e - fraction.length)

/-- Why a text is no number. -/
inductive ReadError where
  | empty
  | invalid
  deriving DecidableEq, Repr

def ReadError.message : ReadError → String
  | empty => "cannot parse float from empty string"
  | invalid => "invalid float literal"

/-- Reads a whole text as a number: a sign, then digits as above or, in any case, one
of `inf`, `infinity` and `nan`. -/
def read (text : String) : Except ReadError Float :=
  if text = "" then .error .empty
  else
    let (negative, body) := takeSign text.toList
    match (String.ofList body).toLower with
    | "inf" | "infinity" => .ok (if negative then -1.0 / 0.0 else 1.0 / 0.0)
    | "nan" => .ok (0.0 / 0.0)
    | _ =>
      match unsigned? body with
      | some (mantissa, exponent) => .ok (Literal.toFloat ⟨negative, mantissa, exponent⟩)
      | none => .error .invalid

end ImagePlacement.Decimal
