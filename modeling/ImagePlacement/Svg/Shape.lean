import ImagePlacement.Svg.Figure
import ImagePlacement.Svg.Outline

namespace ImagePlacement.Svg.Figure

/-- The basic shapes. -/
def isShape (f : Figure) : Bool :=
  ["rect", "circle", "ellipse", "line", "polyline", "polygon", "path"].contains f.tag

/-- The radii along both axes. A missing or negative one is as the other one, and without both
there are none. -/
private def radii (f : Figure) (room : Room) : Float32 × Float32 :=
  let radius? (name : String) (axis : Axis) : Option Float32 :=
    let isNegative (x : Float) : Bool := x < 0.0 || (x == 0.0 && 1.0 / x < 0.0)
    ((f.lengthOf? name).filter fun l => !isNegative l.number).map (f.pixels room axis)
  match radius? "rx" .across, radius? "ry" .down with
  | some rx, some ry => (rx, ry)
  | some r, none | none, some r => (r, r)
  | none, none => (0.0, 0.0)

/-- The outline of a basic shape; none for any other item. -/
def outline? (f : Figure) (room : Room) : Option Outline :=
  let across (name : String) := f.length room .across name .zero
  let down (name : String) := f.length room .down name .zero
  match f.tag with
  | "rect" =>
    let width := across "width"
    let height := down "height"
    let (rx, ry) := radii f room
    let rx := if width / 2.0 < rx then width / 2.0 else rx
    let ry := if height / 2.0 < ry then height / 2.0 else ry
    if isSide width && isSide height then
      Outline.rounded? (across "x") (down "y") width height rx ry
    else none
  | "circle" =>
    let r := f.length room .neither "r" .zero
    if isSide r then Outline.ellipse? (across "cx") (down "cy") r r else none
  | "ellipse" =>
    let (rx, ry) := radii f room
    if isSide rx && isSide ry then Outline.ellipse? (across "cx") (down "cy") rx ry else none
  | "line" => Outline.line? ⟨across "x1", down "y1"⟩ ⟨across "x2", down "y2"⟩
  | "polyline" => (f.value? "points").bind fun text => Outline.ofPlaces? text false
  | "polygon" => (f.value? "points").bind fun text => Outline.ofPlaces? text true
  | "path" => (f.value? "d").bind Outline.ofPathData?
  | _ => none

end ImagePlacement.Svg.Figure
