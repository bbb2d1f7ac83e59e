import ImagePlacement.Format
import ImagePlacement.Text.Utf8
import ImagePlacement.Svg.Prologue

namespace ImagePlacement.Signature

/-- How many leading bytes decide the format. -/
def window : Nat := 512

/-- The mark of an electronic book, which stands behind a header of 60 bytes. -/
def bookMark : Bytes := [0x42, 0x4F, 0x4F, 0x4B, 0x4D, 0x4F, 0x42, 0x49]

/-- Formats that are recognised by fixed bytes. A known image encoding without a
decoder counts as `unknown`, even when text that could be SVG follows. The mark of a book comes
first, and a book is no image. -/
def magic? (bs : Bytes) : Option Format :=
  if bookMark.isPrefixOf (bs.drop 60) then none
  else if [0xFF, 0xD8, 0xFF].isPrefixOf bs then some .jpeg
  else if [0x89, 0x50, 0x4E, 0x47].isPrefixOf bs then some .png
  else if [0x57, 0x45, 0x42, 0x50].isPrefixOf (bs.drop 8) then some .unknown
  else none

/-- The format of a file's content, judged by its first bytes only. -/
def sniff (content : Bytes) : Format :=
  let start := content.take window
  match magic? start with
  | some format => format
  | none => if Svg.Prologue.accepts (Utf8.decodeLossy start) then .svg else .unknown

end ImagePlacement.Signature
