import ImagePlacement.Registry
import ImagePlacement.Signature
import ImagePlacement.Path
import ImagePlacement.Source.Content

namespace ImagePlacement

/-- The product of two words, unless it is none. -/
def product? (a b : UInt64) : Option UInt64 :=
  if a.toNat * b.toNat < UInt64.size then some (a * b) else none

theorem product?_eq_some_iff {a b c : UInt64} :
    product? a b = some c ↔ a.toNat * b.toNat = c.toNat := by
  simp only [product?]
  constructor
  · intro h
    split at h
    · rename_i hFits
      simp only [Option.some.injEq] at h
      rw [← h, UInt64.toNat_mul, Nat.mod_eq_of_lt hFits]
    · simp at h
  · intro h
    have hFits : a.toNat * b.toNat < UInt64.size := h ▸ c.toNat_lt
    rw [if_pos hFits, Option.some.injEq, ← UInt64.toNat_inj, UInt64.toNat_mul,
      Nat.mod_eq_of_lt hFits, h]

namespace PixelSize

/-- How many pixels there are. -/
def pixels? (size : PixelSize) : Option UInt64 :=
  product? size.width.toUInt64 size.height.toUInt64

/-- How many bytes they take, at four bytes a pixel. -/
def bytes? (size : PixelSize) : Option UInt64 := size.pixels?.bind (product? · 4)

end PixelSize

namespace Settings

/-- Refuses too many pixels. -/
def checkPixels (s : Settings) (size : PixelSize) : Except LoadError Unit :=
  match size.pixels? with
  | none => .error (.overLimit "pixel count overflow")
  | some pixels =>
    if s.maxPixels < pixels then
      .error (.overLimit (size.text ++ " = " ++ toString pixels.toNat ++ " pixels (limit " ++
        toString s.maxPixels.toNat ++ ")"))
    else .ok ()

/-- Refuses pixels that take too many bytes. -/
def checkMemory (s : Settings) (size : PixelSize) : Except LoadError Unit :=
  match size.bytes? with
  | none => .error (.overLimit "decoded size overflow")
  | some bytes =>
    if s.maxDecodedBytes < bytes then
      .error (.overLimit ("estimated decoded size " ++ mebibytes bytes ++ " (limit " ++
        mebibytes s.maxDecodedBytes ++ ")"))
    else .ok ()

/-- Refuses an image of pixels that is too large. Without pixels there is nothing to refuse. -/
def checkRaster (s : Settings) (size : Option PixelSize) : Except LoadError Unit :=
  match size with
  | none => .ok ()
  | some size => do
    s.checkPixels size
    s.checkMemory size

end Settings

namespace Decoding

/-- The size that the header of a raster image gives, as far as it can be read. -/
def headerSize? (format : Format) (content : Bytes) : Option PixelSize :=
  match format with
  | .png => Png.probeSize? content
  | .jpeg => Jpeg.probeSize? content
  | .svg | .unknown => none

/-- What is noted about a path whose extension suggests another format. -/
def mismatch (settings : Settings) (path : String) (format : Format) : List Event :=
  let suggested := Path.suggestedFormat path
  if settings.warnOnMismatch ∧ suggested ≠ .unknown ∧ format ≠ .unknown ∧ suggested ≠ format then
    [.mismatch path suggested format]
  else []

/-- Checks an image that has been decoded. -/
def approve (settings : Settings) (image : Image) : Outcome LoadError Image :=
  Outcome.ofExcept (do settings.checkRaster image.pixelSize?; return image)

/-- Decodes content under limits, and what is noted. The format is judged by the content alone.
A raster image is checked by its header before it is decoded, and every image after. -/
def run (settings : Settings) (registry : Registry) (path : String) (content : Bytes) :
    Outcome LoadError Image × List Event :=
  let format := Signature.sniff content
  let noted := mismatch settings path format
  match settings.checkRaster (headerSize? format content) with
  | .error e => (.failed e, noted)
  | .ok _ =>
    let decoded := (registry.decode format content).mapError .undecodable
    let noted := if registry.supports format then noted ++ [.decoding format] else noted
    (decoded.bind (approve settings), noted)

end Decoding

end ImagePlacement
