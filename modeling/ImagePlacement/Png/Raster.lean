import ImagePlacement.Deflate.Zlib
import ImagePlacement.Png.Layout
import ImagePlacement.Png.Preamble

namespace ImagePlacement.Png

/-- The data of the data chunks that a stream starts with, after that in `done`, which is kept in
reverse order of chunks. All of them must be intact. -/
def dataRun? (done : List Bytes) (bs : Bytes) : Option (List Bytes) :=
  match _hChunk : Chunk.split? bs with
  | none => some done.reverse
  | some (c, rest) =>
    if c.kind = Chunk.imageData then
      if c.isIntact then dataRun? (c.data :: done) rest else none
    else some done.reverse
termination_by bs.length
decreasing_by
  have hLength := Chunk.split?_length _hChunk
  simp only [Chunk.size] at hLength
  omega

/-- The data of the frame chunks that a stream starts with, after that in `done`. They are numbered
from `number` on. -/
def frameRun? (number : Nat) (done : List Bytes) (bs : Bytes) : Option (List Bytes) :=
  match _hChunk : Chunk.split? bs with
  | none => some done.reverse
  | some (c, rest) =>
    if c.kind = Chunk.frameData then
      if Bytes.toNat (c.data.take 4) = number ∧ 4 ≤ c.data.length then
        frameRun? (number + 1) (c.data.drop 4 :: done) rest
      else none
    else some done.reverse
termination_by bs.length
decreasing_by
  have hLength := Chunk.split?_length _hChunk
  simp only [Chunk.size] at hLength
  omega

/-- The pieces of compressed data that a stream starts with. -/
def pieces? (p : Preamble) (bs : Bytes) : Option (List Bytes) :=
  match (Chunk.lead? bs).map (fun found => found.2.1), p.frame with
  | some kind, some number =>
    if kind = Chunk.frameData then frameRun? (number + 1) [] bs else dataRun? [] bs
  | _, _ => dataRun? [] bs

/-- The place after a number of rows, each of which starts with a filter below five. -/
def afterRows? (content : ByteArray) (rowLength : Nat) (place : Nat) : Nat → Option Nat
  | 0 => some place
  | rows + 1 =>
    let next := place + 1 + rowLength
    if h : place < content.size then
      if content[place] ≤ 4 ∧ next ≤ content.size then afterRows? content rowLength next rows
      else none
    else none

/-- Whether the content holds all rows of an image. What follows them does not count. -/
def Form.fits (f : Form) (content : ByteArray) : Bool :=
  (f.stored.foldlM (fun place (w, h) => afterRows? content (f.rowLength w) place h) 0).isSome

/-- The size that a decoder finds in a stream's header. -/
def probeSize? (bs : Bytes) : Option PixelSize :=
  if signature.isPrefixOf bs then
    (Preamble.ofStream? (bs.drop signature.length)).map fun found => found.1.form.size
  else none

/-- The size of the pixels of a stream, if they decode. -/
def pixels? (bs : Bytes) : Option PixelSize := do
  let (p, rest) ← Preamble.ofStream? (bs.drop signature.length)
  if (p.form.colour = 3 && !p.hasPalette) || !p.fitsWhole then none
  let content ← Zlib.take? (← pieces? p rest) p.form.storedBytes
  if p.form.fits content then some p.form.size else none

end ImagePlacement.Png
