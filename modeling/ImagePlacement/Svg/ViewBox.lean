import ImagePlacement.Svg.Geometry
import ImagePlacement.Svg.Number

namespace ImagePlacement.Svg

/-- Which part of a side's spare room comes before. -/
inductive Alignment where
  | low
  | middle
  | high
  deriving DecidableEq, Repr

/-- How a rectangle of another shape is fitted into an area. -/
inductive Fit where
  | stretched
  /-- Equal factors for both sides: the lesser one, or the greater one where the area is to be
  covered. -/
  | even (x y : Alignment) (isCovering : Bool)
  deriving DecidableEq, Repr

namespace Fit

def standard : Fit := .even .middle .middle false

/-- The alignments by their names. -/
private def named? (word : String) : Option (Option (Alignment × Alignment)) :=
  match word with
  | "none" => some none
  | "xMinYMin" => some (some (.low, .low))
  | "xMidYMin" => some (some (.middle, .low))
  | "xMaxYMin" => some (some (.high, .low))
  | "xMinYMid" => some (some (.low, .middle))
  | "xMidYMid" => some (some (.middle, .middle))
  | "xMaxYMid" => some (some (.high, .middle))
  | "xMinYMax" => some (some (.low, .high))
  | "xMidYMax" => some (some (.middle, .high))
  | "xMaxYMax" => some (some (.high, .high))
  | _ => none

/-- The fit that a text names: perhaps `defer`, an alignment, and perhaps `meet` or `slice`. -/
def ofText? (text : String) : Option Fit := do
  let text := skipSpaces text.toList
  let text ← if "defer".toList.isPrefixOf text then
      match text.drop 5 with
      | ' ' :: rest => some (skipSpaces rest)
      | _ => none
    else some text
  let (word, rest) := takeWord text
  let alignment ← named? word
  let (word, _) := takeWord (skipSpaces rest)
  if ["", "meet", "slice"].contains word then
    match alignment with
    | some (x, y) => return .even x y (word = "slice")
    | none => return .stretched
  else none

end Fit

/-- The spare room before a rectangle. -/
def Alignment.before (a : Alignment) (spare : Float32) : Float32 :=
  match a with
  | low => 0.0
  | middle => spare / 2.0
  | high => spare

/-- A rectangle of user space that is to fill an area. -/
abbrev ViewBox := Bounds

namespace ViewBox

/-- The view box that a text writes: four numbers, of which the last two are positive. What
follows does not count. -/
def ofText? (text : String) : Option ViewBox := do
  match ← takeNumbers? text.toList 4 with
  | ([x, y, width, height], _) =>
    if width ≤ 0.0 ∨ height ≤ 0.0 then none
    (some (Bounds.ofSides x.toFloat32 y.toFloat32 width.toFloat32 height.toFloat32)).filter
      Bounds.isSolid
  | _ => none

/-- The map that fits a view box into an area. -/
def fitted (box : ViewBox) (fit : Fit) (width height : Float32) : Affine :=
  let sx := width / box.width
  let sy := height / box.height
  match fit with
  | .stretched => ⟨sx, 0.0, 0.0, sy, -box.left * sx, -box.top * sy⟩
  | .even alongX alongY isCovering =>
    let s := if isCovering then (if sx < sy then sy else sx) else if sy < sx then sy else sx
    let spareX := width - box.width * s
    let spareY := height - box.height * s
    ⟨s, 0.0, 0.0, s, -box.left * s + alongX.before spareX, -box.top * s + alongY.before spareY⟩

end ViewBox

end ImagePlacement.Svg
