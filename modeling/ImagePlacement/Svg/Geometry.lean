namespace ImagePlacement.Svg

/-- Whether a number can be a side of a drawing. -/
def isSide (x : Float32) : Bool := x.isFinite && 0.0 < x

/-- A point of a drawing. -/
structure Point where
  x : Float32
  y : Float32

/-- A rectangle with sides along the axes. -/
structure Bounds where
  left : Float32
  top : Float32
  right : Float32
  bottom : Float32

/-- An affine map: `x * sx + y * kx + tx` and `x * ky + y * sy + ty`. -/
structure Affine where
  sx : Float32
  ky : Float32
  kx : Float32
  sy : Float32
  tx : Float32
  ty : Float32

/-- A step of an outline. -/
inductive Segment where
  | move (p : Point)
  | line (p : Point)
  | quadratic (control p : Point)
  | cubic (first second p : Point)
  | close

namespace Segment

/-- The points of a step. -/
def points : Segment → List Point
  | move p | line p => [p]
  | quadratic c p => [c, p]
  | cubic c d p => [c, d, p]
  | close => []

/-- A step with all its points mapped. -/
def map (f : Point → Point) : Segment → Segment
  | move p => move (f p)
  | line p => line (f p)
  | quadratic c p => quadratic (f c) (f p)
  | cubic c d p => cubic (f c) (f d) (f p)
  | close => close

end Segment

namespace Bounds

def width (b : Bounds) : Float32 := b.right - b.left

def height (b : Bounds) : Float32 := b.bottom - b.top

/-- The rectangle of one point at the origin. -/
def zero : Bounds := ⟨0.0, 0.0, 0.0, 0.0⟩

/-- A rectangle by its corner and its sides. -/
def ofSides (x y width height : Float32) : Bounds := ⟨x, y, width + x, height + y⟩

/-- The largest number of single precision. -/
private def greatest : Float := 3.4028234663852886e38

/-- Whether all sides are finite, in order and not further apart than numbers reach. -/
def isSound (b : Bounds) : Bool :=
  let fits (low high : Float32) : Bool :=
    low.isFinite && high.isFinite && low ≤ high && high.toFloat - low.toFloat < greatest
  fits b.left b.right && fits b.top b.bottom

/-- Whether a rectangle has an inside as well. -/
def isSolid (b : Bounds) : Bool := b.isSound && b.left < b.right && b.top < b.bottom

/-- The smallest rectangle around two. -/
def union (a b : Bounds) : Bounds :=
  { left := if b.left < a.left then b.left else a.left
    top := if b.top < a.top then b.top else a.top
    right := if a.right < b.right then b.right else a.right
    bottom := if a.bottom < b.bottom then b.bottom else a.bottom }

/-- The smallest rectangle around several. -/
def unionAll? : List Bounds → Option Bounds
  | [] => none
  | b :: rest => some (rest.foldl union b)

/-- The smallest rectangle around points. There is none around points that are not finite. -/
def ofPoints? (points : List Point) : Option Bounds :=
  let isFinite (p : Point) : Bool := p.x.isFinite && p.y.isFinite
  if points.all isFinite then
    (unionAll? (points.map fun p => ⟨p.x, p.y, p.x, p.y⟩)).filter isSound
  else none

/-- The corners of a rectangle. -/
def corners (b : Bounds) : List Point :=
  [⟨b.left, b.top⟩, ⟨b.right, b.top⟩, ⟨b.right, b.bottom⟩, ⟨b.left, b.bottom⟩]

end Bounds

namespace Affine

def identity : Affine := ⟨1.0, 0.0, 0.0, 1.0, 0.0, 0.0⟩

def shift (x y : Float32) : Affine := ⟨1.0, 0.0, 0.0, 1.0, x, y⟩

def scaling (x y : Float32) : Affine := ⟨x, 0.0, 0.0, y, 0.0, 0.0⟩

/-- A turn by an angle in degrees. -/
def rotation (angle : Float32) : Affine :=
  let radians := angle * 0.017453292
  let cos := radians.cos
  let sin := radians.sin
  ⟨cos, sin, -sin, cos, 0.0, 0.0⟩

/-- The map that takes the unit square to a rectangle. -/
def ofUnit (b : Bounds) : Affine := ⟨b.width, 0.0, 0.0, b.height, b.left, b.top⟩

def isIdentity (m : Affine) : Bool :=
  m.sx == 1.0 && m.ky == 0.0 && m.kx == 0.0 && m.sy == 1.0 && m.tx == 0.0 && m.ty == 0.0

def hasSkew (m : Affine) : Bool := m.kx != 0.0 || m.ky != 0.0

def apply (m : Affine) (p : Point) : Point :=
  if m.isIdentity then p
  else if m.hasSkew then ⟨p.x * m.sx + p.y * m.kx + m.tx, p.x * m.ky + p.y * m.sy + m.ty⟩
  else ⟨p.x * m.sx + m.tx, p.y * m.sy + m.ty⟩

/-- The map that applies `inner` first. -/
def compose (outer inner : Affine) : Affine :=
  let sum (a b c d : Float32) : Float32 :=
    (a.toFloat * b.toFloat + c.toFloat * d.toFloat).toFloat32
  if outer.isIdentity then inner
  else if inner.isIdentity then outer
  else if !outer.hasSkew && !inner.hasSkew then
    ⟨outer.sx * inner.sx, 0.0, 0.0, outer.sy * inner.sy, outer.sx * inner.tx + outer.tx,
      outer.sy * inner.ty + outer.ty⟩
  else
    { sx := sum outer.sx inner.sx outer.kx inner.ky
      ky := sum outer.ky inner.sx outer.sy inner.ky
      kx := sum outer.sx inner.kx outer.kx inner.sy
      sy := sum outer.ky inner.kx outer.sy inner.sy
      tx := sum outer.sx inner.tx outer.kx inner.ty + outer.tx
      ty := sum outer.ky inner.tx outer.sy inner.ty + outer.ty }

/-- Whether a map is finite and flattens no axis. -/
def isRegular (m : Affine) : Bool :=
  let length (a b : Float32) := (a * a + b * b).sqrt
  let tiny : Float32 := 1.1920929e-7
  [m.sx, m.ky, m.kx, m.sy, m.tx, m.ty].all Float32.isFinite &&
    tiny < length m.sx m.kx && tiny < length m.ky m.sy

/-- The rectangle around a mapped rectangle. -/
def applyBounds? (m : Affine) (b : Bounds) : Option Bounds :=
  if m.isIdentity then some b else Bounds.ofPoints? (b.corners.map m.apply)

end Affine

/-- A quotient strictly between zero and one. -/
private def properQuotient? (num den : Float32) : Option Float32 :=
  let (num, den) := if num < 0.0 then (-num, -den) else (num, den)
  if den == 0.0 || num == 0.0 || den ≤ num then none
  else
    let r := num / den
    if 0.0 < r && r < 1.0 then some r else none

/-- Where a quadratic curve turns along one axis. -/
private def quadraticTurns (a b c : Float32) : List Float32 :=
  (properQuotient? (a - b) (a - b - b + c)).toList

/-- Where a cubic curve turns along one axis. -/
private def cubicTurns (a b c d : Float32) : List Float32 :=
  let square := d - a + 3.0 * (b - c)
  let linear := 2.0 * (a - b - b + c)
  let constant := b - a
  if square == 0.0 then (properQuotient? (-constant) linear).toList
  else
    let discriminant := linear.toFloat * linear.toFloat - 4.0 * square.toFloat * constant.toFloat
    if discriminant < 0.0 then []
    else
      let r := discriminant.sqrt.toFloat32
      if !r.isFinite then []
      else
        let q := if linear < 0.0 then -(linear - r) / 2.0 else -(linear + r) / 2.0
        (properQuotient? q square).toList ++ (properQuotient? constant q).toList

/-- The points that bound a step which starts at a point. -/
private def turningPoints (start : Point) : Segment → List Point
  | .move p | .line p => [p]
  | .quadratic c p =>
    let pointAt (t : Float32) : Point :=
      let along (a b d : Float32) := ((d - 2.0 * b + a) * t + 2.0 * (b - a)) * t + a
      ⟨along start.x c.x p.x, along start.y c.y p.y⟩
    (quadraticTurns start.x c.x p.x ++ quadraticTurns start.y c.y p.y).map pointAt ++ [p]
  | .cubic c d p =>
    let pointAt (t : Float32) : Point :=
      let along (a b e f : Float32) :=
        (((f + 3.0 * (b - e) - a) * t + 3.0 * (e - 2.0 * b + a)) * t + 3.0 * (b - a)) * t + a
      ⟨along start.x c.x d.x p.x, along start.y c.y d.y p.y⟩
    (cubicTurns start.x c.x d.x p.x ++ cubicTurns start.y c.y d.y p.y).map pointAt ++ [p]
  | .close => []

/-- Steps of a drawing that begin with a move. -/
abbrev Outline := List Segment

namespace Outline

/-- The points that bound an outline, from where it has come. -/
private def boundingPoints (here : Point) : Outline → List Point
  | [] => []
  | s :: rest => turningPoints here s ++ boundingPoints (s.points.getLast?.getD here) rest

/-- The tight bounds of an outline. -/
def bounds? (outline : Outline) : Option Bounds :=
  Bounds.ofPoints? (boundingPoints ⟨0.0, 0.0⟩ outline)

/-- Steps without a move that another move follows. -/
def mergeMoves : Outline → Outline
  | .move _ :: .move p :: rest => mergeMoves (.move p :: rest)
  | s :: rest => s :: mergeMoves rest
  | [] => []

/-- The outline of some steps, if it is more than one step and all its points can be bounded. -/
def ofSteps? (steps : List Segment) : Option Outline :=
  let outline := mergeMoves steps
  if outline.length < 2 then none
  else if (Bounds.ofPoints? (outline.flatMap Segment.points)).isNone then none
  else some outline

/-- The tight bounds of an outline under a map. Without a skew the bounds themselves are
mapped. -/
def mappedBounds? (outline : Outline) (m : Affine) : Option Bounds :=
  if m.hasSkew then (ofSteps? (outline.map (Segment.map m.apply))).bind bounds?
  else outline.bounds?.bind m.applyBounds?

end Outline

end ImagePlacement.Svg
