import ImagePlacement.Jpeg.Layout
import ImagePlacement.Jpeg.Scan

namespace ImagePlacement.Jpeg

/-- Decodes a stream: its segments must make up an image, and its pixels must decode to the size
that the frame header gives. -/
def decode (bs : Bytes) : Except DecodeError Image := do
  let header ← (inspect bs).mapError Fault.toDecodeError
  match pixels? bs with
  | none => .error (.corrupt .jpeg undecodable)
  | some size =>
    if size = header.size then Image.ofPixels .jpeg size header.density
    else
      .error (.corrupt .jpeg ("decoded size " ++ size.text ++ " differs from frame header " ++
        header.size.text))

end ImagePlacement.Jpeg
