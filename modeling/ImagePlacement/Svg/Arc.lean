import ImagePlacement.Svg.Geometry

namespace ImagePlacement.Svg

/-- A place in a drawing before it is rounded. -/
structure Place where
  x : Float
  y : Float

namespace Place

def toPoint (p : Place) : Point := ⟨p.x.toFloat32, p.y.toFloat32⟩

def ofPoint (p : Point) : Place := ⟨p.x.toFloat, p.y.toFloat⟩

def add (p q : Place) : Place := ⟨p.x + q.x, p.y + q.y⟩

def sub (p q : Place) : Place := ⟨p.x - q.x, p.y - q.y⟩

def scale (f : Float) (p : Place) : Place := ⟨f * p.x, f * p.y⟩

end Place

/-- Half of a full turn in radians. -/
def halfTurn : Float := 3.141592653589793

/-- An angle in radians. -/
def radians (degrees : Float) : Float := degrees * (halfTurn / 180.0)

/-- What remains of a positive number after it has been reduced by multiples of another one, each
a power of two times it below `2 ^ rounds`. -/
private def reduce (x y : Float) : Nat → Float
  | 0 => x
  | rounds + 1 =>
    let step := y.scaleB rounds
    reduce (if step ≤ x then x - step else x) y rounds

/-- An angle without its full turns, of the same sign. -/
def withoutTurns (x : Float) : Float :=
  let rest := reduce x.abs (2.0 * halfTurn) 1100
  if x < 0.0 then -rest else rest

/-- A part of an ellipse from one place to another. -/
structure Arc where
  start : Place
  finish : Place
  rx : Float
  ry : Float
  /-- How far the ellipse is turned, in radians. -/
  rotation : Float
  /-- The longer one of two parts. -/
  isLarge : Bool
  /-- The part in the direction of growing angles. -/
  isForward : Bool

namespace Arc

/-- A part of an ellipse by its centre and angles. -/
structure Swept where
  centre : Place
  rx : Float
  ry : Float
  rotation : Float
  startAngle : Float
  sweep : Float

/-- An arc by its centre. Radii too small to reach from end to end are enlarged. Without radii or
between equal places there is none. -/
def swept? (a : Arc) : Option Swept :=
  let least : Float := 1e-5
  if a.rx.abs ≤ least || a.ry.abs ≤ least || (a.start.x == a.finish.x && a.start.y == a.finish.y) then
    none
  else
    let turned := withoutTurns a.rotation
    let sin := turned.sin
    let cos := turned.cos
    let hx := (a.start.x - a.finish.x) * 0.5
    let hy := (a.start.y - a.finish.y) * 0.5
    let mx := (a.start.x + a.finish.x) * 0.5
    let my := (a.start.y + a.finish.y) * 0.5
    let px := cos * hx + sin * hy
    let py := -sin * hx + cos * hy
    let reach := px * px / (a.rx.abs * a.rx.abs) + py * py / (a.ry.abs * a.ry.abs)
    let factor := if 1.0 < reach then reach.sqrt else 1.0
    let rx := a.rx.abs * factor
    let ry := a.ry.abs * factor
    let area := rx * ry
    let rxpy := rx * py
    let rypx := ry * px
    let squares := rxpy * rxpy + rypx * rypx
    let sign : Float := if a.isLarge == a.isForward then -1.0 else 1.0
    let ratio := sign * ((area * area - squares) / squares).abs.sqrt
    let cx := ratio * rxpy / ry
    let cy := -ratio * rypx / rx
    let startAngle := ((py - cy) / ry).atan2 ((px - cx) / rx)
    let finishAngle := ((-py - cy) / ry).atan2 ((-px - cx) / rx)
    let sweep := withoutTurns (finishAngle - startAngle)
    let sweep :=
      if a.isForward && sweep < 0.0 then sweep + 2.0 * halfTurn
      else if !a.isForward && 0.0 < sweep then sweep - 2.0 * halfTurn
      else sweep
    some
      { centre := ⟨cos * cx - sin * cy + mx, sin * cx + cos * cy + my⟩
        rx := rx, ry := ry, rotation := a.rotation, startAngle := startAngle, sweep := sweep }

namespace Swept

/-- Where the ellipse around the origin is at an angle. -/
private def sample (s : Swept) (angle : Float) : Place :=
  let u := s.rx * angle.cos
  let v := s.ry * angle.sin
  let sin := s.rotation.sin
  let cos := s.rotation.cos
  ⟨u * cos - v * sin, u * sin + v * cos⟩

/-- How far curves may be from the ellipse. -/
private def tolerance : Float := 0.1

/-- Cubic curves along an arc, each a step by an angle with control points along the tangents. -/
private def curvesFrom (s : Swept) (step arm angle : Float) (here : Place) :
    Nat → List (Place × Place × Place)
  | 0 => []
  | n + 1 =>
    let next := angle + step
    let first := here.add (.scale arm (s.sample (angle + halfTurn / 2.0)))
    let last := s.sample next
    let second := last.sub (.scale arm (s.sample (next + halfTurn / 2.0)))
    (s.centre.add first, s.centre.add second, s.centre.add last) ::
      curvesFrom s step arm next last n

/-- The control points and ends of cubic curves along an arc. -/
def curves (s : Swept) : List (Place × Place × Place) :=
  let sign : Float := if s.sweep < 0.0 then -1.0 else 1.0
  let largest := if s.rx < s.ry then s.ry else s.rx
  let wanted := (1.1163 * (largest / tolerance)).pow (1.0 / 6.0)
  let perTurn := if wanted < 3.999999 then 3.999999 else wanted
  let n := (perTurn * s.sweep.abs * (1.0 / (2.0 * halfTurn))).ceil
  let step := s.sweep / n
  let arm := (4.0 / 3.0) * (0.25 * step).abs.tan * sign
  s.curvesFrom step arm s.startAngle (s.sample s.startAngle) n.toUInt64.toNat

end Swept

/-- The steps along an arc: curves, or a line where there is no ellipse. -/
def steps (a : Arc) : List Segment :=
  match a.swept? with
  | some s => s.curves.map fun (c, d, p) => .cubic c.toPoint d.toPoint p.toPoint
  | none => [.line a.finish.toPoint]

end Arc

end ImagePlacement.Svg
