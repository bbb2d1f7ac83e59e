import ImagePlacement.Image
import ImagePlacement.Deflate.Gzip
import ImagePlacement.Svg.Drawing
import ImagePlacement.Svg.Embedded
import ImagePlacement.Text.Utf8

namespace ImagePlacement.Svg

/-- The size of a drawing in pixels. -/
structure Extent where
  width : Float32
  height : Float32

/-- The sides of the pictures that references hold. -/
abbrev Pictures := String → Option (Float32 × Float32)

namespace Extent

/-- The room of a drawing that gives none. -/
def fallback : Float32 := 100.0

/-- The size that a drawing's own attributes give, and whether it depends on the fallback. A side
that is missing or cannot be read is all of the room around: the view box, or the
fallback where there is none. -/
def declared (root : Figure) : Extent × Bool :=
  let side (name : String) : Length := (root.lengthOf? name).getD .whole
  let width := side "width"
  let height := side "height"
  match root.viewBox? with
  | some box =>
    let room := Room.ofBox box
    (⟨root.pixels room .across width, root.pixels room .down height⟩, false)
  | none =>
    let pixels (axis : Axis) (l : Length) : Float32 :=
      if l.unit = .percent then (l.number / 100.0 * fallback.toFloat).toFloat32
      else root.pixels ⟨fallback, fallback⟩ axis l
    (⟨pixels .across width, pixels .down height⟩, width.unit = .percent ∨ height.unit = .percent)

def isProper (x : Extent) : Bool := isSide x.width && isSide x.height

/-- The right and bottom edges of what is drawn, if both are positive. -/
def ofContent? (pictures : Pictures) (root : Figure) (outer : Extent) : Option Extent :=
  let drawn := drawnIn pictures ⟨outer.width, outer.height⟩ root.item
  ((Bounds.unionAll? (drawn.map Drawn.placed)).map fun b =>
    Extent.mk b.right b.bottom).filter isProper

/-- The size of a drawing: the declared one, but where that depends on the fallback and something
is drawn, what is drawn decides. -/
def ofRoot? (pictures : Pictures) (root : Figure) : Option Extent :=
  let (declared, loose) := declared root
  if !declared.isProper then none
  else if loose then some ((ofContent? pictures root declared).getD declared)
  else some declared

end Extent

/-- Points of a pixel of a drawing. -/
def pointsPerPixel : Float := 72.0 / 96.0

/-- The text of a document, which may be compressed. -/
def textOf? (bs : Bytes) : Option (List Char) :=
  match bs with
  | 0x1F :: 0x8B :: _ => (Gzip.content? bs).bind fun content => Utf8.decode? content.toList
  | _ => Utf8.decode? bs

/-- The root of a drawing. -/
def rootOf? (bs : Bytes) : Option Figure :=
  (((textOf? bs).bind Xml.rootOf?).bind Item.ofRoot?).map Figure.ofRoot

/-- The sides of pictures in a drawing: pixels, or the size of a drawing without pictures of its
own. -/
def pictures (reference : String) : Option (Float32 × Float32) := do
  match ← Embedded.ofReference? reference with
  | .raster content =>
    let (width, height) ← Embedded.sides? content
    if width = 0 ∨ height = 0 then none else return (Float32.ofNat width, Float32.ofNat height)
  | .drawing content =>
    let extent ← Extent.ofRoot? (fun _ => none) (← rootOf? content)
    return (extent.width, extent.height)

/-- Decodes a drawing. Without a proper size it is degenerate. -/
def decode (bs : Bytes) : Except DecodeError Image :=
  match rootOf? bs with
  | none => .error (.corrupt .svg undecodable)
  | some root =>
    match Extent.ofRoot? pictures root with
    | none => .error (.degenerate 0.0 0.0)
    | some extent =>
      Image.make .svg (extent.width.toFloat * pointsPerPixel)
        (extent.height.toFloat * pointsPerPixel) .vector

end ImagePlacement.Svg
