import ImagePlacement.Svg.Number

namespace ImagePlacement.Svg

/-- Units of length. A percentage refers to the room around. -/
inductive LengthUnit where
  | pixel
  | em
  | ex
  | inch
  | centimetre
  | millimetre
  | point
  | pica
  | percent
  deriving DecidableEq, Repr

/-- A number with a unit. -/
structure Length where
  number : Float
  unit : LengthUnit

namespace Length

def zero : Length := ⟨0.0, .pixel⟩

/-- All of the room around. -/
def whole : Length := ⟨100.0, .percent⟩

/-- The unit at the start of a text, and the text after it. Without one a length is in pixels. -/
private def takeUnit (text : List Char) : LengthUnit × List Char :=
  match text with
  | '%' :: rest => (.percent, rest)
  | 'e' :: 'm' :: rest => (.em, rest)
  | 'e' :: 'x' :: rest => (.ex, rest)
  | 'p' :: 'x' :: rest => (.pixel, rest)
  | 'i' :: 'n' :: rest => (.inch, rest)
  | 'c' :: 'm' :: rest => (.centimetre, rest)
  | 'm' :: 'm' :: rest => (.millimetre, rest)
  | 'p' :: 't' :: rest => (.point, rest)
  | 'p' :: 'c' :: rest => (.pica, rest)
  | _ => (.pixel, text)

/-- A length, and the text after it. -/
def take? (text : List Char) : Option (Length × List Char) :=
  (takeNumber? text).map fun (number, rest) =>
    let (unit, rest) := takeUnit rest
    (⟨number, unit⟩, rest)

/-- The length that a text writes. -/
def ofText? (text : String) : Option Length :=
  match take? text.toList with
  | some (length, []) => some length
  | _ => none

/-- Pixels of an inch. -/
def inch : Float32 := 96.0

/-- The length in pixels, for a font size and for what all of the room is worth. -/
def pixels (l : Length) (fontSize room : Float32) : Float32 :=
  let n := l.number.toFloat32
  match l.unit with
  | .pixel => n
  | .em => n * fontSize
  | .ex => n * fontSize / 2.0
  | .inch => n * inch
  | .centimetre => n * inch / 2.54
  | .millimetre => n * inch / 25.4
  | .point => n * inch / 72.0
  | .pica => n * inch / 6.0
  | .percent => room * n / 100.0

end Length

namespace FontSize

/-- The font size where none is given. -/
def standard : Float32 := 12.0

/-- What one step between named sizes multiplies by. -/
private def factor : Float32 := 1.2

/-- The names of sizes, each with its steps up and down from the size around. -/
private def named : List (String × Nat × Nat) :=
  [("xx-small", 0, 3), ("x-small", 0, 2), ("small", 0, 1), ("medium", 0, 0), ("large", 1, 0),
    ("x-large", 2, 0), ("xx-large", 3, 0), ("smaller", 0, 1), ("larger", 1, 0)]

/-- Whether a word names a size. -/
def isNamed (word : String) : Bool := (named.lookup word).isSome

private def power (x : Float32) : Nat → Float32
  | 0 => 1.0
  | n + 1 => power x n * x

/-- The font size that a text means where the size around is given. -/
def ofText (outer : Float32) (text : String) : Float32 :=
  match Length.ofText? text with
  | some length =>
    if length.unit = .percent then length.number.toFloat32 * outer * 0.01
    else length.pixels outer outer
  | none =>
    match named.lookup text with
    | some (0, down) => outer * (1.0 / power factor down)
    | some (up, _) => outer * power factor up
    | none => outer

end FontSize

end ImagePlacement.Svg
