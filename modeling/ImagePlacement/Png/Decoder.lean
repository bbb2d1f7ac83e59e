import ImagePlacement.Png.Layout
import ImagePlacement.Png.Raster

namespace ImagePlacement.Png

/-- Decodes a stream: its chunks must make up an image, and its pixels must decode to the size
that the chunks give. -/
def decode (bs : Bytes) : Except DecodeError Image := do
  let header ← (inspect bs).mapError Fault.toDecodeError
  match pixels? bs with
  | none => .error (.corrupt .png undecodable)
  | some size =>
    if size = header.size then Image.ofPixels .png size header.density
    else
      .error (.corrupt .png ("decoded size " ++ size.text ++ " differs from IHDR " ++
        header.size.text))

end ImagePlacement.Png
