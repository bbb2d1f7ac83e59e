import ImagePlacement.Svg.Arc
import ImagePlacement.Svg.Length

namespace ImagePlacement.Svg

/-- An affine map before it is rounded: `a * x + c * y + e` and `b * x + d * y + f`. -/
structure Matrix where
  a : Float
  b : Float
  c : Float
  d : Float
  e : Float
  f : Float

namespace Matrix

def identity : Matrix := ⟨1.0, 0.0, 0.0, 1.0, 0.0, 0.0⟩

def shift (x y : Float) : Matrix := ⟨1.0, 0.0, 0.0, 1.0, x, y⟩

/-- A turn by an angle in degrees. -/
def rotation (degrees : Float) : Matrix :=
  let cos := (radians degrees).cos
  let sin := (radians degrees).sin
  ⟨cos, sin, -sin, cos, 0.0, 0.0⟩

/-- The map that applies `inner` first. -/
def compose (outer inner : Matrix) : Matrix :=
  { a := outer.a * inner.a + outer.c * inner.b
    b := outer.b * inner.a + outer.d * inner.b
    c := outer.a * inner.c + outer.c * inner.d
    d := outer.b * inner.c + outer.d * inner.d
    e := outer.a * inner.e + outer.c * inner.f + outer.e
    f := outer.b * inner.e + outer.d * inner.f + outer.f }

def toAffine (m : Matrix) : Affine :=
  ⟨m.a.toFloat32, m.b.toFloat32, m.c.toFloat32, m.d.toFloat32, m.e.toFloat32, m.f.toFloat32⟩

/-- The numbers of a call up to its closing bracket, and the text after the bracket. The second
and later ones of `most` may be missing only if the bracket follows the first `least`. -/
private def takeOperands? (least most : Nat) (text : List Char) :
    Option (List Float × List Char) := do
  let (numbers, rest) ← takeNumbers? text least
  match skipSpaces rest with
  | ')' :: rest => return (numbers, rest)
  | rest =>
    let (more, rest) ← takeNumbers? rest (most - least)
    match skipSpaces rest with
    | ')' :: rest => return (numbers ++ more, rest)
    | _ => none

/-- The maps of one call. A turn around a point is three of them. -/
private def call? (name : String) (text : List Char) : Option (List Matrix × List Char) :=
  match name with
  | "matrix" => do
    match ← takeOperands? 6 6 text with
    | ([a, b, c, d, e, f], rest) => return ([⟨a, b, c, d, e, f⟩], rest)
    | _ => none
  | "translate" => do
    let (numbers, rest) ← takeOperands? 1 2 text
    return ([shift (numbers.headD 0.0) (numbers.tail.headD 0.0)], rest)
  | "scale" => do
    let (numbers, rest) ← takeOperands? 1 2 text
    let x := numbers.headD 0.0
    return ([⟨x, 0.0, 0.0, numbers.tail.headD x, 0.0, 0.0⟩], rest)
  | "rotate" => do
    match ← takeOperands? 1 3 text with
    | ([angle, x, y], rest) =>
      return ([shift x y, rotation angle, shift (-x) (-y)], rest)
    | (numbers, rest) => return ([rotation (numbers.headD 0.0)], rest)
  | "skewX" => do
    let (numbers, rest) ← takeOperands? 1 1 text
    return ([⟨1.0, 0.0, (radians (numbers.headD 0.0)).tan, 1.0, 0.0, 0.0⟩], rest)
  | "skewY" => do
    let (numbers, rest) ← takeOperands? 1 1 text
    return ([⟨1.0, (radians (numbers.headD 0.0)).tan, 0.0, 1.0, 0.0, 0.0⟩], rest)
  | _ => none

/-- The map of calls, the first one outermost, inside the map of those before. Each call takes
characters, so as many rounds suffice as the text has. -/
private def ofCalls? (rounds : Nat) (outer : Matrix) (text : List Char) : Option Matrix :=
  match rounds, skipSpaces text with
  | _, [] => some outer
  | 0, _ => none
  | rounds + 1, text =>
    let (name, rest) := takeWord text
    match skipSpaces rest with
    | '(' :: rest => do
      let (maps, rest) ← call? name rest
      ofCalls? rounds (maps.foldl compose outer) (skipSeparator rest)
    | _ => none

/-- The map that a text writes as a list of calls. -/
def ofText? (text : String) : Option Matrix := ofCalls? text.length identity text.toList

end Matrix

/-- The point that a transform keeps in place. -/
structure Origin where
  x : Length
  y : Length

namespace Origin

/-- A part of an origin: a length, or a name that may stand for either axis or for one. -/
private inductive Part where
  | length (l : Length)
  | named (percentage : Float) (forX forY : Bool)

private def half : Length := ⟨50.0, .percent⟩

private def Part.along (forX : Bool) : Part → Option Length
  | length l => some l
  | named percentage x y => if (if forX then x else y) then some ⟨percentage, .percent⟩ else none

/-- A part, and the text after it. -/
private def takePart? (text : List Char) : Option (Part × List Char) :=
  let text := skipSpaces text
  let names : List (String × Part) :=
    [("top", .named 0.0 false true), ("bottom", .named 100.0 false true),
      ("left", .named 0.0 true false), ("right", .named 100.0 true false),
      ("center", .named 50.0 true true)]
  match names.find? fun (name, _) => name.toList.isPrefixOf text with
  | some (name, part) => some (part, text.drop name.length)
  | none => (Length.take? text).map fun (l, rest) => (.length l, rest)

/-- The origin of one or two parts. Two names may stand in either order. -/
private def ofParts? : Part → Option Part → Option Origin
  | first, none =>
    match first.along true with
    | some x => some ⟨x, half⟩
    | none => (first.along false).map fun y => ⟨half, y⟩
  | first, some second =>
    match first.along true, second.along false, first, second with
    | some x, some y, _, _ => some ⟨x, y⟩
    | _, _, .named .., .named .. =>
      match second.along true, first.along false with
      | some x, some y => some ⟨x, y⟩
      | _, _ => none
    | _, _, _, _ => none

/-- The origin that a text writes. A third part is a length and does not count. -/
def ofText? (text : String) : Option Origin := do
  let (first, rest) ← takePart? text.toList
  if skipSpaces rest = [] then ofParts? first none
  else
    let (second, rest) ← takePart? (skipSeparator rest)
    if skipSpaces rest = [] then ofParts? first (some second)
    else
      let (_, rest) ← Length.take? (skipSeparator rest)
      if skipSpaces rest = [] then ofParts? first (some second) else none

end Origin

end ImagePlacement.Svg
