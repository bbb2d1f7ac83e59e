import ImagePlacement.Failure
import ImagePlacement.Sizing

namespace ImagePlacement

/-- Dots per inch on both axes. -/
structure Density where
  x : Float
  y : Float

/-- A size in pixels. -/
structure PixelSize where
  width : UInt32
  height : UInt32
  deriving DecidableEq, Repr

/-- What an image is made of. Pixels themselves are not kept, only their extent. -/
inductive Payload where
  | raster (size : PixelSize) (density : Option Density)
  | vector

/-- A length that an image may have. -/
def isProper (x : Float) : Bool := x.isFinite && 0.0 < x

/-- A decoded image. Its natural size in points is finite and positive. -/
structure Image where
  format : Format
  width : Float
  height : Float
  payload : Payload
  width_proper : isProper width = true
  height_proper : isProper height = true

/-- Width and height as shown in messages. -/
def PixelSize.text (s : PixelSize) : String :=
  toString s.width.toNat ++ "x" ++ toString s.height.toNat

namespace Density

/-- The density of images that declare none: a pixel is a point. -/
def standard : Density := ⟨72.0, 72.0⟩

def isValid (d : Density) : Bool := isProper d.x && isProper d.y

end Density

namespace Image

/-- An image of a given size in points, unless the size is degenerate. -/
def make (format : Format) (width height : Float) (payload : Payload) :
    Except DecodeError Image :=
  if h : isProper width = true ∧ isProper height = true then
    .ok ⟨format, width, height, payload, h.1, h.2⟩
  else .error (.degenerate width height)

/-- Points covered by a number of pixels. -/
def points (pixels : UInt32) (dotsPerInch : Float) : Float :=
  pixels.toFloat * 72.0 / dotsPerInch

/-- An image made of pixels. A density with an improper axis is dropped as a whole. -/
def ofPixels (format : Format) (size : PixelSize) (density : Option Density) :
    Except DecodeError Image :=
  let declared := density.filter Density.isValid
  let used := declared.getD Density.standard
  make format (points size.width used.x) (points size.height used.y) (.raster size declared)

def naturalSize (image : Image) : Size Float := ⟨image.width, image.height⟩

/-- Width over height. -/
def aspect (image : Image) : Float := image.width / image.height

def pixelSize? (image : Image) : Option PixelSize :=
  match image.payload with
  | .raster size _ => some size
  | .vector => none

def density? (image : Image) : Option Density :=
  match image.payload with
  | .raster _ density => density
  | .vector => none

/-- The image shown as a term. -/
def asTerm (image : Image) : String :=
  let pixels := match image.pixelSize? with
    | some size =>
      "Some((" ++ toString size.width.toNat ++ ", " ++ toString size.height.toNat ++ "))"
    | none => "None"
  "DecodedImage \x7b format: " ++ image.format.label ++
    ", width: " ++ Decimal.asTerm image.width ++
    ", height: " ++ Decimal.asTerm image.height ++
    ", pixel_size: " ++ pixels ++ " \x7d"

end Image

end ImagePlacement
