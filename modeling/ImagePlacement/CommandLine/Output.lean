import ImagePlacement.CommandLine.Report
import ImagePlacement.Json.Writer

namespace ImagePlacement

open Json (Written)

/-- A diagnostic as a record. -/
def Diagnostic.written (d : Diagnostic) : Written :=
  let span (s : Span) : Written :=
    .fields [("start", .natural s.start), ("end", .natural s.stop)]
  .fields
    [("file", Written.ofOption .text d.file), ("span", Written.ofOption span d.span),
      ("kind", .text d.kind.name), ("code", .text d.kind.code), ("path", .text d.path),
      ("message", .text d.message)]

/-- A report as a record. -/
def CommandLine.Report.written (r : Report) : Written :=
  let pixels (s : PixelSize) : Written :=
    .list [.natural s.width.toNat, .natural s.height.toNat]
  let density (d : Density) : Written := .fields [("x", .number d.x), ("y", .number d.y)]
  .fields
    [("path", .text r.path), ("format", .text r.image.format.name),
      ("intrinsic_width", .number r.image.width), ("intrinsic_height", .number r.image.height),
      ("pixel_size", Written.ofOption pixels r.image.pixelSize?),
      ("dpi", Written.ofOption density r.image.density?),
      ("render_box", .fields
        [("width", .number r.box.width), ("height", .number r.box.height),
          ("scale_x", .number r.box.scaleX), ("scale_y", .number r.box.scaleY)]),
      ("cache", .fields
        [("hits", .natural r.tally.hits), ("misses", .natural r.tally.misses),
          ("coalesced", .natural r.tally.coalesced), ("failures", .natural r.tally.failures),
          ("entries", .natural r.entries)])]

end ImagePlacement
